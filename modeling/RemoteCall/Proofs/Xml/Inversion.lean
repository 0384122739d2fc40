import RemoteCall.Proofs.Xml.Replacement
import RemoteCall.Proofs.Xml.Surroundings

/-!
# Reading undoes escaping

Escaped text is the content of an element that holds the text, and an escaped value between
double quotes is that of an attribute with the value, whatever stands around them.
-/

namespace RemoteCall.Xml

open NodeFrame (fillAll)

/-! ## Attributes with another value -/

/-- A step that succeeds at every item of a list succeeds at one of them and at those before and
behind it. -/
theorem mapM_append_cons_eq_some_iff {α β : Type} {f : α → Option β} {first second : List α}
    {item : α} {images : List β} :
    (first ++ item :: second).mapM f = some images ↔
      ∃ before image after, first.mapM f = some before ∧ f item = some image ∧
        second.mapM f = some after ∧ images = before ++ image :: after := by
  simp only [List.mapM_append, List.mapM_cons, Option.bind_eq_bind, Option.bind_eq_some_iff,
    Option.pure_def, Option.some.injEq]
  constructor
  · rintro ⟨before, hbefore, _, ⟨image, himage, after, hafter, rfl⟩, rfl⟩
    exact ⟨before, image, after, hbefore, himage, hafter, rfl⟩
  · rintro ⟨before, image, after, hbefore, himage, hafter, rfl⟩
    exact ⟨before, hbefore, _, ⟨image, himage, after, hafter, rfl⟩, rfl⟩

/-- An attribute that declares nothing adds no binding. -/
theorem bindingsOf_append_plain (first second : List Declared) (key : QName) (value : String) :
    bindingsOf (first ++ .plain key value :: second) = bindingsOf (first ++ second) := by
  simp [bindingsOf]

/-- The value of an attribute matters neither for its namespace nor for the other attributes. -/
theorem exists_append_of_attributesOf {scope : List Binding} {first second : List Declared}
    {key : QName} {value : String} {attributes : List Attribute}
    (h : attributesOf scope (first ++ .plain key value :: second) = some attributes) :
    ∃ uri before after,
      attributes = before ++ ⟨uri, String.ofList key.localPart, value⟩ :: after ∧
      ∀ value', attributesOf scope (first ++ .plain key value' :: second) =
        some (before ++ ⟨uri, String.ofList key.localPart, value'⟩ :: after) := by
  simp only [attributesOf, Option.bind_eq_bind, Option.bind_eq_some_iff, List.filterMap_append,
    List.filterMap_cons_some, mapM_append_cons_eq_some_iff, Option.ite_none_right_eq_some,
    Option.some.injEq] at h ⊢
  obtain ⟨_, ⟨before, _, after, hbefore, ⟨uri, huri, rfl⟩, hafter, rfl⟩, hnodup, rfl⟩ := h
  refine ⟨uri, before, after, rfl, fun value' => ⟨_, ⟨before, _, after, hbefore,
    ⟨uri, huri, rfl⟩, hafter, rfl⟩, ?_, rfl⟩⟩
  simpa using hnodup

/-! ## Content -/

/-- Merging leaves no node only if there was none. -/
theorem eq_nil_of_mergeText {nodes : List Node} (h : mergeText nodes = []) : nodes = [] := by
  cases nodes with
  | nil => rfl
  | cons node rest =>
    rw [mergeText_eq_join] at h
    unfold join at h
    split at h <;> cases h

/-- Only no nodes are resolved to none. -/
theorem eq_nil_of_resolveAll {scope : List Binding} {trees : List Tree}
    (h : resolveAll scope trees = some []) : trees = [] := by
  cases trees with
  | nil => rfl
  | cons tree rest => simp [resolveAll, Option.bind_eq_some_iff] at h

/-- Wherever a document holds an element without content, the escaped text may be its content. It
is read as the text, and nothing else of the document is read differently. -/
def IsReadAsContent (text escaped : String) : Prop :=
  ∀ document frames uri name attributes opening closing, closing ≠ [] →
    parse? document = some (fillAll frames (.element uri name attributes [] opening closing)) →
    ∃ lead trail,
      document.toList = lead ++ (NodeFrame.before frames ++
        (opening ++ closing) ++ NodeFrame.after frames) ++ trail ∧
      parse? (String.ofList (lead ++ (NodeFrame.before frames ++
        (opening ++ escaped.toList ++ closing) ++ NodeFrame.after frames) ++ trail)) =
        some (fillAll frames (.element uri name attributes
          [.text text.toList escaped.toList []] opening closing))

/-- Escaped text is read back as the text wherever it is written as the content of an element. -/
theorem isReadAsContent_escapeText {text : String} (hne : text ≠ "")
    (hlegal : isXmlText text = true) : IsReadAsContent text (escapeText text) := by
  intro document frames uri name attributes opening closing hclosing hparse
  obtain ⟨lead, trail, scope, tree, hdocument, hcontent, hresolve, hplace⟩ :=
    exists_place (by trivial) hparse
  obtain ⟨tag, content, declarations, bindings, children, rfl, hdeclared, hbindings, huri,
    hattributes, hchildren, rfl, hmerged⟩ := exists_of_resolve_eq_element hresolve
  obtain rfl := eq_nil_of_mergeText hmerged
  obtain rfl := eq_nil_of_resolveAll hchildren
  obtain ⟨hstart, hend, -, hopening, hclosing'⟩ := hcontent.of_element hclosing
  have htext : resolveAll (bindings ++ scope) [.text (escapeText text).toList] =
      some [.text text.toList (escapeText text).toList []] := by
    simp [resolveAll, resolve_escapeText]
  have hresolve' : resolve scope (.element tag opening [.text (escapeText text).toList] closing) =
      some (.element uri (String.ofList tag.name.localPart) attributes
        [.text text.toList (escapeText text).toList []] opening closing) :=
    resolve_element_eq_some_iff.mpr ⟨declarations, bindings, _, _, _, hdeclared, hbindings, huri,
      hattributes, htext, rfl⟩
  have hcontent' :=
    IsContent.element hstart hend (isContent_escapeText hne hlegal) hopening hclosing'
  refine ⟨lead, trail, ?_, ?_⟩
  · simpa [Node.source, Node.sources] using hdocument
  · have hfilled := hplace _ _ (by trivial) (hcontent'.of_resolve hresolve') hresolve'
    simpa [Node.source, Node.sources, mergeText] using hfilled

/-! ## Values -/

/-- Characters are spelled by one token at most. -/
theorem Token.Spells.unique {token token' : Token} {source : List Char} (h : token.Spells source)
    (h' : token'.Spells source) : token = token' := by
  have hread {token : Token} (h : token.Spells source) : readToken source = some (token, []) :=
    readToken_eq_some_iff.mpr ⟨source, h, by simp, fun _ => by simp [StartsMarkup, Stops]⟩
  have heq := hread h
  rw [hread h', Option.some.injEq, Prod.mk.injEq] at heq
  exact heq.1.symm

/-- What opens an element; one without closing characters is an empty tag. -/
def openingToken (tag : Tag) (closed : Bool) : Token :=
  if closed then .emptyTag tag else .startTag tag

/-- Another tag of the same name may open an element. -/
theorem IsContent.exists_openingToken {tag : Tag} {opening closing source : List Char}
    {content : List Tree} (h : IsContent [.element tag opening content closing] source) :
    (openingToken tag closing.isEmpty).Spells opening ∧ opening.all isXmlChar = true ∧
      ∀ tag' opening', tag'.name = tag.name →
        (openingToken tag' closing.isEmpty).Spells opening' → opening'.all isXmlChar = true →
        ∃ source', IsContent [.element tag' opening' content closing] source' := by
  cases closing with
  | nil =>
    have hsequence := h.sequence
    have hlegal := h.legal
    have hempty : content = [] := by
      cases h.shaped _ List.mem_cons_self with
      | element hshape => exact hshape rfl
    subst hempty
    rw [← h.source_eq] at hlegal
    exact ⟨hsequence.1, by simpa [Tree.sources, Tree.source] using hlegal,
      fun tag' opening' _ hspells hlegal => ⟨_, .emptyElement hspells hlegal⟩⟩
  | cons c closing =>
    obtain ⟨hstart, hend, hcontent, hopening, hlegal⟩ := h.of_element (List.cons_ne_nil c closing)
    exact ⟨hstart, hopening, fun tag' opening' hname hspells hlegal' =>
      ⟨_, IsContent.element hspells (hname ▸ hend) hcontent hlegal' hlegal⟩⟩

/-- The characters of a tag around the value of one of its attributes, which stands between double
quotes. The attribute is no declaration of a namespace. -/
structure TagFrame where
  name : QName
  first : List RawAttribute
  key : QName
  second : List RawAttribute
  closed : Bool
  before : List Char
  after : List Char
  key_isPlain : key.scope ≠ "xmlns".toList ∧ key.localPart ≠ "xmlns".toList
  spells : ∀ value : List Char, '"' ∉ value → '<' ∉ value →
    (openingToken ⟨name, first ++ ⟨key, value⟩ :: second⟩ closed).Spells
      (before ++ '"' :: (value ++ '"' :: after))

namespace TagFrame

/-- The tag with the value. -/
def fill (frame : TagFrame) (value : String) : Tag :=
  ⟨frame.name, frame.first ++ ⟨frame.key, value.toList⟩ :: frame.second⟩

/-- The characters of the tag with the value. -/
def written (frame : TagFrame) (value : String) : List Char :=
  frame.before ++ '"' :: (value.toList ++ '"' :: frame.after)

/-- With a legal value in it, a tag is as legal as with an empty one. -/
theorem legal_written {frame : TagFrame} {value : String}
    (h : (frame.written "").all isXmlChar = true) (hvalue : value.toList.all isXmlChar = true) :
    (frame.written value).all isXmlChar = true := by
  simp only [written, String.toList_empty, List.nil_append, List.all_append, List.all_cons,
    Bool.and_eq_true] at h ⊢
  exact ⟨h.1, h.2.1, hvalue, h.2.2⟩

/-- A tag as it is put together from its parts. -/
def ofParts (name : QName) (first : List RawAttribute) (key : QName) (second : List RawAttribute)
    (closed : Bool) (hname : name.IsProper) (hkey : key.IsProper)
    (hplain : key.scope ≠ "xmlns".toList ∧ key.localPart ≠ "xmlns".toList)
    (hraws : ∀ raw ∈ first ++ second, raw.IsWritable) : TagFrame where
  name := name
  first := first
  key := key
  second := second
  closed := closed
  before := '<' :: (name.text.toList ++ (Markup.renderAttributes (first.map RawAttribute.written) ++
    ' ' :: (key.text.toList ++ ['='])))
  after := Markup.renderAttributes (second.map RawAttribute.written) ++
    if closed then ['/', '>'] else ['>']
  key_isPlain := hplain
  spells := by
    intro value hquote hmarkup
    have hending : AttributesSpell [] closed (if closed then ['/', '>'] else ['>']) := by
      cases closed with
      | false => exact .opened isSpacing_nil
      | true => exact .closed isSpacing_nil
    have hsecond := attributesSpell_append
      (fun raw hraw => hraws raw (List.mem_append_right _ hraw)) hending
    have hvalue : ValueSpells value ([] ++ '=' :: ([] ++ '"' :: (value ++ ['"']))) :=
      .quoted isSpacing_nil isSpacing_nil (.inl rfl)
        fun c hc => ⟨fun h => hquote (h ▸ hc), fun h => hmarkup (h ▸ hc)⟩
    have hattributes := attributesSpell_append
      (fun raw hraw => hraws raw (List.mem_append_left _ hraw))
      (.cons (List.cons_ne_nil ' ' []) (by simp [IsSpacing, isSpace])
        (.mk hkey.spells_text hvalue) hsecond)
    cases closed with
    | false => simpa [openingToken] using Token.Spells.startTag hname.spells_text hattributes
    | true => simpa [openingToken] using Token.Spells.emptyTag hname.spells_text hattributes

end TagFrame

/-- An element whose tag is that around a value has the tag with the value. -/
theorem IsContent.tag_eq {frame : TagFrame} {value : String} {tag : Tag}
    {closing source : List Char} {content : List Tree} (hquote : '"' ∉ value.toList)
    (hmarkup : '<' ∉ value.toList)
    (h : IsContent [.element tag (frame.written value) content closing] source) :
    tag = frame.fill value ∧ closing.isEmpty = frame.closed := by
  have heq := h.exists_openingToken.1.unique (frame.spells value.toList hquote hmarkup)
  unfold openingToken at heq
  cases hclosing : closing.isEmpty <;> cases hclosed : frame.closed <;>
    simp_all [TagFrame.fill]

/-- With another value of the attribute, the tag is resolved to the same but for that value. -/
theorem exists_append_of_resolve {frame : TagFrame} {scope : List Binding} {content : List Tree}
    {uri : Option String} {name : String} {attributes : List Attribute} {children : List Node}
    {opening closing : List Char}
    (h : resolve scope (.element (frame.fill "") opening content closing) =
      some (.element uri name attributes children opening closing)) :
    ∃ keyUri before after,
      attributes = before ++ ⟨keyUri, String.ofList frame.key.localPart, ""⟩ :: after ∧
      ∀ raw text opening', attributeValue raw.toList = some text →
        resolve scope (.element (frame.fill raw) opening' content closing) =
          some (.element uri name
            (before ++ ⟨keyUri, String.ofList frame.key.localPart, text⟩ :: after) children
            opening' closing) := by
  obtain ⟨tag, content, declarations, bindings, nodes, htree, hdeclared, hbindings, huri,
    hattributes, hchildren, rfl, rfl⟩ := exists_of_resolve_eq_element h
  obtain ⟨rfl, -, rfl, -⟩ := Tree.element.inj htree
  -- the empty value is that of a plain attribute, so another declares nothing else
  obtain ⟨first, declaration, second, hfirst, hdeclaration, hsecond, rfl⟩ :=
    mapM_append_cons_eq_some_iff.mp hdeclared
  have hplain {raw : List Char} {value : String} (hvalue : attributeValue raw = some value) :
      declared ⟨frame.key, raw⟩ = some (.plain frame.key value) :=
    declared_eq_plain hvalue frame.key_isPlain.1 frame.key_isPlain.2
  have hempty : attributeValue "".toList = some "" := by
    simp [attributeValue, readWritten, normalizeAttribute]
  rw [hplain hempty, Option.some.injEq] at hdeclaration
  subst hdeclaration
  obtain ⟨keyUri, before, after, rfl, hvalue⟩ := exists_append_of_attributesOf hattributes
  refine ⟨keyUri, before, after, rfl, fun raw text opening' hraw => ?_⟩
  have hdeclared' : (frame.fill raw).attributes.mapM declared =
      some (first ++ .plain frame.key text :: second) :=
    mapM_append_cons_eq_some_iff.mpr ⟨first, _, second, hfirst, hplain hraw, hsecond, rfl⟩
  rw [bindingsOf_append_plain, ← bindingsOf_append_plain first second frame.key text] at hbindings
  exact resolve_element_eq_some_iff.mpr
    ⟨_, bindings, _, _, nodes, hdeclared', hbindings, huri, hvalue text, hchildren, rfl⟩

/-- Wherever a document holds an element with an empty attribute, the escaped text may be written
between the quotes. It is read as the text, and nothing else of the document is read
differently. -/
def IsReadAsValue (text escaped : String) : Prop :=
  ∀ document frames uri name attributes children closing (frame : TagFrame),
    parse? document = some (fillAll frames
      (.element uri name attributes children (frame.written "") closing)) →
    ∃ keyUri before after lead trail,
      attributes = before ++ ⟨keyUri, String.ofList frame.key.localPart, ""⟩ :: after ∧
      document.toList = lead ++ (NodeFrame.before frames ++
        (frame.written "" ++ Node.sources children ++ closing) ++ NodeFrame.after frames) ++ trail ∧
      parse? (String.ofList (lead ++ (NodeFrame.before frames ++
        (frame.written escaped ++ Node.sources children ++ closing) ++ NodeFrame.after frames) ++
          trail)) =
        some (fillAll frames (.element uri name
          (before ++ ⟨keyUri, String.ofList frame.key.localPart, text⟩ :: after) children
          (frame.written escaped) closing))

/-- An escaped value is read back wherever it is written between the quotes of an attribute. -/
theorem isReadAsValue_escapeAttribute {text : String} (hlegal : isXmlText text = true) :
    IsReadAsValue text (escapeAttribute text) := by
  intro document frames uri name attributes children closing frame hparse
  obtain ⟨lead, trail, scope, tree, hdocument, hcontent, hresolve, hplace⟩ :=
    exists_place (by trivial) hparse
  obtain ⟨tag, content, -, -, -, rfl, -⟩ := exists_of_resolve_eq_element hresolve
  obtain ⟨rfl, hclosed⟩ := hcontent.tag_eq (by simp) (by simp)
  obtain ⟨keyUri, before, after, rfl, hvalue⟩ := exists_append_of_resolve hresolve
  have hresolve' := hvalue _ text (frame.written (escapeAttribute text))
    (attributeValue_escapeAttribute text)
  obtain ⟨-, hopening, hother⟩ := hcontent.exists_openingToken
  have hconfined := isConfined_escapeAttributeChar.forall_mem_escaped hlegal
  have hspells : (openingToken (frame.fill (escapeAttribute text)) closing.isEmpty).Spells
      (frame.written (escapeAttribute text)) := by
    rw [hclosed]
    exact frame.spells _ (fun hmem => (hconfined _ hmem).1 (by simp))
      fun hmem => (hconfined _ hmem).1 (by simp)
  have hwritten := frame.legal_written hopening
    (List.all_eq_true.mpr fun c hc => (hconfined c hc).2)
  obtain ⟨source, hcontent'⟩ := hother (frame.fill (escapeAttribute text)) _ rfl hspells hwritten
  have hfilled := hplace _ _ (by trivial) (hcontent'.of_resolve hresolve') hresolve'
  rw [Node.source] at hdocument hfilled
  exact ⟨keyUri, before, after, lead, trail, rfl, hdocument, hfilled⟩

/-- Every text is read back from where it is written escaped: as the content of an element, and
between double quotes as the value of an attribute. -/
theorem isReadBack_of_isXmlText {text : String} (hne : text ≠ "") (hlegal : isXmlText text = true) :
    IsEscaping escapeText textReplacements ['<', '>', '"', '\'', '\r'] ∧
      IsEscaping escapeAttribute valueReplacements ['<', '>', '"', '\'', '\r', '\n', '\t'] ∧
      IsReadAsContent text (escapeText text) ∧ IsReadAsValue text (escapeAttribute text) :=
  ⟨isEscaping_escapeText, isEscaping_escapeAttribute, isReadAsContent_escapeText hne hlegal,
    isReadAsValue_escapeAttribute hlegal⟩

/-- Line ends of all kinds, markup and quotes are read back. There are documents with places for
them. -/
theorem isReadBack_of_isXmlText_lines :
    ("a\r\n<&\r\"\t" ≠ "" ∧ isXmlText "a\r\n<&\r\"\t" = true) ∧
      parse? "<a><b></b></a>" = some (fillAll
        [⟨none, "a", [], "<a>".toList, [], [], "</a>".toList⟩]
        (.element none "b" [] [] "<b>".toList "</b>".toList)) ∧
      IsReadAsContent "a\r\n<&\r\"\t" "a&#13;\n&lt;&amp;&#13;&quot;\t" ∧
      (∃ frame : TagFrame, parse? "<a b=\"\"/>" = some (fillAll []
        (.element none "a" [⟨none, "b", ""⟩] [] (frame.written "") []))) ∧
      IsReadAsValue "a\r\n<&\r\"\t" "a&#13;&#10;&lt;&amp;&#13;&quot;&#9;" := by
  have h := @isReadBack_of_isXmlText "a\r\n<&\r\"\t" (by decide) (by decide)
  have hcontent : escapeText "a\r\n<&\r\"\t" = "a&#13;\n&lt;&amp;&#13;&quot;\t" := by decide +kernel
  have hvalue : escapeAttribute "a\r\n<&\r\"\t" = "a&#13;&#10;&lt;&amp;&#13;&quot;&#9;" := by
    decide +kernel
  rw [hcontent, hvalue] at h
  refine ⟨⟨by decide, by decide⟩, by decide +kernel, h.2.2.1,
    ⟨.ofParts ⟨[], ['a']⟩ [] ⟨[], ['b']⟩ [] true ⟨rfl, by decide⟩ ⟨rfl, by decide⟩ (by decide)
      (by simp), by decide +kernel⟩, h.2.2.2⟩

end RemoteCall.Xml
