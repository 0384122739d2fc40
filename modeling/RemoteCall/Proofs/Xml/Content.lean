import RemoteCall.Proofs.Xml.Escaping
import RemoteCall.Proofs.Xml.Nesting
import RemoteCall.Xml.Markup

/-!
# Content that is written

What may stand between two tags can be told without regard to the tags. Content is put
together from parts: text, and elements around other content. A document is made of content
that is one element.
-/

namespace RemoteCall.Xml

variable {source : List Char}

/-- The characters spell the nodes, and could stand anywhere in a document. -/
structure IsContent (trees : List Tree) (source : List Char) : Prop where
  shaped : ∀ tree ∈ trees, tree.Shaped
  sequence : IsSequence (Tree.lexemesOf trees)
  source_eq : Tree.sources trees = source
  legal : source.all isXmlChar = true

/-- The source of the first nodes stands before that of the others. -/
theorem Tree.sources_append (first second : List Tree) :
    Tree.sources (first ++ second) = Tree.sources first ++ Tree.sources second := by
  induction first with
  | nil => rfl
  | cons tree first ih => simp [Tree.sources, ih]

namespace IsContent

/-- No characters are content without nodes. -/
theorem nil : IsContent [] [] :=
  ⟨by simp, trivial, rfl, rfl⟩

/-- Content may be followed by content that begins with markup. -/
theorem append {first second : List Tree} {firstSource secondSource : List Char}
    (hfirst : IsContent first firstSource) (hsecond : IsContent second secondSource)
    (hmarkup : StartsMarkup secondSource) :
    IsContent (first ++ second) (firstSource ++ secondSource) where
  shaped := by
    intro tree htree
    rcases List.mem_append.mp htree with h | h
    · exact hfirst.shaped tree h
    · exact hsecond.shaped tree h
  sequence := by
    rw [Tree.lexemesOf_append]
    refine hfirst.sequence.append hsecond.sequence ?_
    rwa [sourceOf_lexemesOf hsecond.shaped, hsecond.source_eq]
  source_eq := by rw [Tree.sources_append, hfirst.source_eq, hsecond.source_eq]
  legal := by rw [List.all_append, hfirst.legal, hsecond.legal]; rfl

/-- Any content may stand between a start tag and its end tag. -/
theorem element {tag : Tag} {content : List Tree} {opening closing : List Char}
    (hopening : (Token.startTag tag).Spells opening)
    (hclosing : (Token.endTag tag.name).Spells closing) (hcontent : IsContent content source)
    (hlegal : opening.all isXmlChar = true) (hlegal' : closing.all isXmlChar = true) :
    IsContent [.element tag opening content closing] (opening ++ source ++ closing) where
  shaped := by
    rintro tree htree
    obtain rfl := List.mem_singleton.mp htree
    exact .element (fun h => absurd h hclosing.ne_nil) hcontent.shaped
  sequence := by
    have hmarkup : StartsMarkup (sourceOf [⟨Token.endTag tag.name, closing⟩]) := by
      cases hclosing with
      | endTag => exact startsMarkup_cons
    have hend : IsSequence [⟨Token.endTag tag.name, closing⟩] := ⟨hclosing, by simp, trivial⟩
    have hrest := hcontent.sequence.append hend hmarkup
    simp only [Tree.lexemesOf, Tree.lexemes, List.isEmpty_iff, hclosing.ne_nil, if_false,
      List.append_nil]
    exact ⟨hopening, by simp, hrest⟩
  source_eq := by simp [Tree.sources, Tree.source, hcontent.source_eq]
  legal := by simp only [List.all_append, hlegal, hcontent.legal, hlegal', Bool.and_self]

/-- An empty tag of legal characters is content of one element. -/
theorem emptyElement {tag : Tag} {opening : List Char}
    (hopening : (Token.emptyTag tag).Spells opening) (hlegal : opening.all isXmlChar = true) :
    IsContent [.element tag opening [] []] opening where
  shaped := by
    rintro tree htree
    obtain rfl := List.mem_singleton.mp htree
    exact .element (fun _ => rfl) (by simp)
  sequence := ⟨hopening, by simp, trivial⟩
  source_eq := by simp [Tree.sources, Tree.source]
  legal := hlegal

/-- Text of legal characters is content of one text node. -/
theorem text (htext : Token.text.Spells source) (hlegal : source.all isXmlChar = true) :
    IsContent [.text source] source where
  shaped := by
    rintro tree htree
    obtain rfl := List.mem_singleton.mp htree
    exact .text
  sequence := ⟨htext, by simp [Tree.lexemesOf, StartsMarkup, Stops], trivial⟩
  source_eq := by simp [Tree.sources, Tree.source]
  legal := hlegal

end IsContent

/-- An element that is all of the content after the declaration is the root of a document. -/
theorem readTree_of_isContent {chars : List Char} {tag : Tag} {content : List Tree}
    {opening closing : List Char} (hchars : chars.all isXmlChar = true)
    (hbody : skipProlog chars = some source)
    (hcontent : IsContent [.element tag opening content closing] source) :
    readTree chars = some (.element tag opening content closing) :=
  readTree_eq_some_iff.mpr ⟨hchars, _, by rw [hcontent.source_eq, hbody], hcontent.sequence,
    hcontent.shaped, rfl⟩

/-! ## Escaped text -/

/-- Every character is written by one at least. -/
theorem escapeTextChar_ne_nil (c : Char) : escapeTextChar c ≠ [] := by
  unfold escapeTextChar escapeMarkup
  repeat' split
  all_goals simp

/-- Escaped text is text between tags. -/
theorem isContent_escapeText {text : String} (hne : text ≠ "") (hlegal : isXmlText text = true) :
    IsContent [.text (escapeText text).toList] (escapeText text).toList := by
  have hconfined (d : Char) (hd : d ∈ ['<', '>', '"']) : d ∉ (escapeText text).toList := by
    rw [escapeText, String.toList_ofList]
    exact isConfined_escapeTextChar.not_mem_flatMap hd
  refine .text (.text ?_ (hconfined '<' (by simp)) fun hoccurs => ?_) ?_
  · obtain ⟨c, tail, hc⟩ := List.exists_cons_of_ne_nil
      (fun h => hne (String.toList_inj.mp h) : text.toList ≠ [])
    simp [escapeText, hc, escapeTextChar_ne_nil]
  · exact hconfined '>' (by simp) (hoccurs.subset (by simp))
  · rw [escapeText, String.toList_ofList]
    exact isConfined_escapeTextChar.isXmlChar_flatMap hlegal

/-! ## Tags -/

/-- The characters of pieces of markup. -/
def charsOf (pieces : List Markup) : List Char :=
  pieces.flatMap Markup.render

/-- The characters of the first pieces stand before those of the others. -/
theorem charsOf_append (first second : List Markup) :
    charsOf (first ++ second) = charsOf first ++ charsOf second :=
  List.flatMap_append

/-- A start tag is the name with its attributes, between brackets. -/
@[simp] theorem render_startTag (name : String) (attributes : List (String × String)) :
    (Markup.startTag name attributes).render =
      '<' :: (name.toList ++ Markup.renderAttributes attributes ++ ['>']) := rfl

/-- An empty tag ends in a slash before the closing bracket. -/
@[simp] theorem render_emptyTag (name : String) (attributes : List (String × String)) :
    (Markup.emptyTag name attributes).render =
      '<' :: (name.toList ++ Markup.renderAttributes attributes ++ ['/', '>']) := rfl

/-- Escaped text is written as it is. -/
@[simp] theorem render_text (escaped : String) : (Markup.text escaped).render = escaped.toList :=
  rfl

/-- An end tag has a slash before its name. -/
@[simp] theorem render_endTag (name : String) :
    (Markup.endTag name).render = '<' :: '/' :: (name.toList ++ ['>']) := rfl

/-- Documents may hold every character of names. -/
theorem isXmlChar_of_isNameChar {c : Char} (h : isNameChar c = true) : isXmlChar c = true := by
  have hle (a b : Char) : a ≤ b ↔ a.toNat ≤ b.toNat := Iff.rfl
  have hcode : 32 ≤ c.toNat ∧ c.toNat ≠ 0xFFFE ∧ c.toNat ≠ 0xFFFF := by
    simp only [isNameChar, isNameStart, Bool.or_eq_true, Bool.and_eq_true, decide_eq_true_eq,
      beq_iff_eq, hle, ← Char.toNat_inj, Char.reduceToNat] at h
    omega
  have hspace : ¬ c < ' ' := fun hlt => absurd hcode.1 (Nat.not_le_of_lt hlt)
  simp [isXmlChar, hspace, hcode]

/-- The text of a qualified name. -/
def QName.text (name : QName) : String :=
  String.ofList
    (if name.scope.isEmpty then name.localPart else name.scope ++ ':' :: name.localPart)

/-- Whether the parts of the name can be told apart where it is written. -/
def QName.IsProper (name : QName) : Prop :=
  (name.scope.isEmpty || isNamePart name.scope) = true ∧ isNamePart name.localPart = true

/-- A proper name is spelled by its text, with a colon if it has a prefix. -/
theorem QName.IsProper.spells_text {name : QName} (h : name.IsProper) :
    name.Spells name.text.toList := by
  obtain ⟨scope, localPart⟩ := name
  obtain ⟨hscope, hname⟩ := h
  rw [QName.text, String.toList_ofList]
  cases scope with
  | nil => exact .bare hname
  | cons c scope => exact .prefixed hscope hname

/-- Whatever spells a name is legal in a document. -/
theorem QName.Spells.legal {name : QName} (h : name.Spells source) :
    source.all isXmlChar = true := by
  refine List.all_eq_true.mpr fun c hc => ?_
  have hletter := h.isNameLetter c hc
  rw [Xml.isNameLetter, Bool.or_eq_true, beq_iff_eq] at hletter
  rcases hletter with rfl | hletter
  · rfl
  · exact isXmlChar_of_isNameChar hletter

/-- The name and the value of an attribute as they are written. -/
def RawAttribute.written (raw : RawAttribute) : String × String :=
  (raw.name.text, String.ofList raw.value)

/-- The name can be written, and the value can stand between double quotes. -/
def RawAttribute.IsWritable (raw : RawAttribute) : Prop :=
  raw.name.IsProper ∧ ∀ c ∈ raw.value, c ∉ ['<', '>', '"'] ∧ isXmlChar c = true

/-- An attribute can be written between double quotes if its name is proper and its value holds no
bracket, no such quote and no illegal character. -/
theorem isWritable_mk {name : QName} {value : List Char} :
    RawAttribute.IsWritable ⟨name, value⟩ ↔
      name.IsProper ∧ ∀ c ∈ value, c ∉ ['<', '>', '"'] ∧ isXmlChar c = true := Iff.rfl

/-- The name and the attributes can be written. -/
def Tag.IsWritable (tag : Tag) : Prop :=
  tag.name.IsProper ∧ ∀ raw ∈ tag.attributes, raw.IsWritable

/-- The start tag as it is written. -/
def Tag.start (tag : Tag) : Markup :=
  .startTag tag.name.text (tag.attributes.map RawAttribute.written)

/-- The empty tag as it is written. -/
def Tag.empty (tag : Tag) : Markup :=
  .emptyTag tag.name.text (tag.attributes.map RawAttribute.written)

/-- The end tag as it is written. -/
def Tag.finish (tag : Tag) : Markup :=
  .endTag tag.name.text

/-- What is written of an attribute spells it. -/
theorem RawAttribute.IsWritable.spells {raw : RawAttribute} (h : raw.IsWritable) :
    raw.Spells (raw.written.1.toList ++ '=' :: '"' :: (raw.written.2.toList ++ ['"'])) := by
  have hvalue : ValueSpells raw.value ([] ++ '=' :: ([] ++ '"' :: (raw.value ++ ['"']))) := by
    refine .quoted isSpacing_nil isSpacing_nil (.inl rfl) fun c hc => ?_
    have := (h.2 c hc).1
    simp_all
  have hspells := RawAttribute.Spells.mk h.1.spells_text hvalue
  simpa [RawAttribute.written] using hspells

/-- Written attributes may stand before any others. -/
theorem attributesSpell_append {raws others : List RawAttribute}
    (h : ∀ raw ∈ raws, raw.IsWritable) {closed : Bool}
    (hothers : AttributesSpell others closed source) :
    AttributesSpell (raws ++ others) closed
      (Markup.renderAttributes (raws.map RawAttribute.written) ++ source) := by
  induction raws with
  | nil => exact hothers
  | cons raw raws ih =>
    obtain ⟨hraw, hraws⟩ := List.forall_mem_cons.mp h
    have hspells := AttributesSpell.cons (List.cons_ne_nil ' ' [])
      (by simp [IsSpacing, isSpace]) hraw.spells (ih hraws)
    simpa [Markup.renderAttributes] using hspells

/-- Attributes that are written one after the other are spelled, up to the end of the tag. -/
theorem attributesSpell_renderAttributes {raws : List RawAttribute}
    (h : ∀ raw ∈ raws, raw.IsWritable) {closed : Bool} {ending : List Char}
    (hending : AttributesSpell [] closed ending) :
    AttributesSpell raws closed
      (Markup.renderAttributes (raws.map RawAttribute.written) ++ ending) := by
  simpa using attributesSpell_append h hending

/-- Attributes that can be written are legal in a document. -/
theorem renderAttributes_legal {raws : List RawAttribute} (h : ∀ raw ∈ raws, raw.IsWritable) :
    (Markup.renderAttributes (raws.map RawAttribute.written)).all isXmlChar = true := by
  induction raws with
  | nil => rfl
  | cons raw raws ih =>
    obtain ⟨hraw, hraws⟩ := List.forall_mem_cons.mp h
    have hname := hraw.1.spells_text.legal
    have hvalue : raw.value.all isXmlChar = true :=
      List.all_eq_true.mpr fun c hc => (hraw.2 c hc).2
    have hfixed : isXmlChar ' ' = true ∧ isXmlChar '=' = true ∧ isXmlChar '"' = true := by decide
    simp only [List.map_cons, Markup.renderAttributes, RawAttribute.written, List.all_cons,
      List.all_append, String.toList_ofList, hname, hvalue, ih hraws, hfixed, Bool.and_self]

namespace Tag.IsWritable

variable {tag : Tag}

/-- What is written of a start tag spells it. -/
theorem start_spells (h : tag.IsWritable) :
    (Token.startTag tag).Spells tag.start.render := by
  have hraws := attributesSpell_renderAttributes h.2 (.opened isSpacing_nil)
  simpa [Tag.start] using Token.Spells.startTag h.1.spells_text hraws

/-- What is written of an empty tag spells it. -/
theorem empty_spells (h : tag.IsWritable) :
    (Token.emptyTag tag).Spells tag.empty.render := by
  have hraws := attributesSpell_renderAttributes h.2 (.closed isSpacing_nil)
  simpa [Tag.empty] using Token.Spells.emptyTag h.1.spells_text hraws

/-- What is written of an end tag spells it. -/
theorem finish_spells (h : tag.IsWritable) :
    (Token.endTag tag.name).Spells tag.finish.render :=
  .endTag h.1.spells_text isSpacing_nil

/-- Whichever way a tag is written, its characters are legal. -/
theorem legal (h : tag.IsWritable) :
    tag.start.render.all isXmlChar = true ∧ tag.empty.render.all isXmlChar = true ∧
      tag.finish.render.all isXmlChar = true := by
  have hname := h.1.spells_text.legal
  have hraws := renderAttributes_legal h.2
  have hfixed : isXmlChar '<' = true ∧ isXmlChar '>' = true ∧ isXmlChar '/' = true := by decide
  simp only [Tag.start, Tag.empty, Tag.finish, render_startTag, render_emptyTag, render_endTag,
    List.all_cons, List.all_append, List.all_nil, hname, hraws, hfixed, Bool.and_self, and_self]

/-- Content may be written between the tags of an element. -/
theorem isContent (h : tag.IsWritable) {content : List Tree} (hcontent : IsContent content source) :
    IsContent [.element tag tag.start.render content tag.finish.render]
      (tag.start.render ++ source ++ tag.finish.render) :=
  .element h.start_spells h.finish_spells hcontent h.legal.1 h.legal.2.2

/-- An empty tag that is written is content of one element. -/
theorem isContent_empty (h : tag.IsWritable) :
    IsContent [.element tag tag.empty.render [] []] tag.empty.render :=
  .emptyElement h.empty_spells h.legal.2.1

end Tag.IsWritable

end RemoteCall.Xml
