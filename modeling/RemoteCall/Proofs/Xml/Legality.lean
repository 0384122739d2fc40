import RemoteCall.Proofs.Xml.Declarations

/-!
# Documents hold legal characters and names only

A document with a character that documents may not hold is not read. So neither is such a
character in anything that is read: the pieces of a document are cut out of it, and the
character that a reference stands for is checked on its own. Names are checked where they
stand, in tags and in front of values.

Both are found lexeme by lexeme, and go together from the lexemes to the sequence, to the tree
and to the document.
-/

namespace RemoteCall.Xml

variable {chars rest source : List Char}

/-- Characters of a legal text are legal. -/
theorem legal_of_subset (h : rest ⊆ chars) (hlegal : chars.all isXmlChar = true) :
    rest.all isXmlChar = true :=
  List.all_eq_true.mpr fun c hc => List.all_eq_true.mp hlegal c (h hc)

/-- A legal character before a legal text makes one. -/
theorem legal_cons {c : Char} (hc : isXmlChar c = true) (hrest : rest.all isXmlChar = true) :
    (c :: rest).all isXmlChar = true := by
  rw [List.all_cons, hc, hrest]
  rfl

/-! ## References -/

/-- The character of a code is checked, and what follows it is part of what was read. -/
theorem legal_of_readCode {base : Nat} {c : Char} (h : readCode base chars = some (c, rest)) :
    isXmlChar c = true ∧ rest ⊆ chars := by
  simp only [readCode] at h
  split at h
  · next rest' hrest =>
    split at h
    · next hcode =>
      cases h
      simp only [Bool.and_eq_true] at hcode
      refine ⟨hcode.2, fun d hd => ?_⟩
      apply List.dropWhile_subset (Text.isDigitIn base)
      rw [hrest]
      exact List.mem_cons_of_mem _ hd
    · cases h
  · cases h

/-- A reference stands for a legal character, and what follows it is part of what was read. -/
theorem legal_of_readReference {c : Char} (h : readReference chars = some (c, rest)) :
    isXmlChar c = true ∧ rest ⊆ chars := by
  unfold readReference at h
  split at h
  · obtain ⟨hc, hrest⟩ := legal_of_readCode h
    exact ⟨hc, fun d hd => List.mem_cons_of_mem _ (List.mem_cons_of_mem _ (hrest hd))⟩
  · obtain ⟨hc, hrest⟩ := legal_of_readCode h
    exact ⟨hc, fun d hd => List.mem_cons_of_mem _ (hrest hd)⟩
  iterate 5
    · cases h
      exact ⟨by decide, fun d hd => by simp [hd]⟩
  · cases h

/-- What is written plainly is legal as it stands, and what a reference stands for is checked. -/
theorem legal_of_readWritten {written : List Written} (h : readWritten chars = some written)
    (hlegal : chars.all isXmlChar = true) : ∀ piece ∈ written, isXmlChar piece.char = true := by
  fun_induction readWritten chars generalizing written with
  | case1 =>
    cases h
    simp
  | case2 chars ih =>
    simp only [Option.bind_eq_bind, Option.bind_eq_some_iff, Prod.exists] at h
    obtain ⟨c, after, hreference, h⟩ := h
    split at h
    · next hlength =>
      simp only [Option.bind_eq_some_iff, Option.some.injEq] at h
      obtain ⟨later, hlater, rfl⟩ := h
      obtain ⟨hc, hafter⟩ := legal_of_readReference hreference
      rw [List.all_cons, Bool.and_eq_true] at hlegal
      have hrest := ih after hlength hlater (legal_of_subset hafter hlegal.2)
      exact List.forall_mem_cons.mpr ⟨hc, hrest⟩
    · cases h
  | case3 c chars hne ih =>
    simp only [Option.bind_eq_bind, Option.bind_eq_some_iff, Option.some.injEq] at h
    obtain ⟨later, hlater, rfl⟩ := h
    rw [List.all_cons, Bool.and_eq_true] at hlegal
    exact List.forall_mem_cons.mpr ⟨hlegal.1, ih hlater hlegal.2⟩

/-- Text keeps its characters or gets line feeds, which are legal. -/
theorem legal_normalizeText {afterReference : Bool} {written : List Written}
    (h : ∀ piece ∈ written, isXmlChar piece.char = true) :
    (normalizeText afterReference written).all isXmlChar = true := by
  fun_induction normalizeText afterReference written with
  | case1 => rfl
  | case2 _ c rest ih =>
    obtain ⟨hc, hrest⟩ := List.forall_mem_cons.mp h
    exact legal_cons hc (ih hrest)
  | case3 _ rest ih =>
    obtain ⟨-, hrest⟩ := List.forall_mem_cons.mp h
    exact legal_cons (by decide) (ih (List.forall_mem_cons.mp hrest).2)
  | case4 _ c rest ih =>
    obtain ⟨hreturn, hrest⟩ := List.forall_mem_cons.mp h
    obtain ⟨hc, hrest⟩ := List.forall_mem_cons.mp hrest
    exact legal_cons hreturn (legal_cons hc (ih hrest))
  | case5 afterReference => cases afterReference <;> decide
  | case6 _ rest _ _ _ ih =>
    exact legal_cons (by decide) (ih (List.forall_mem_cons.mp h).2)
  | case7 _ c rest _ _ _ _ ih =>
    obtain ⟨hc, hrest⟩ := List.forall_mem_cons.mp h
    exact legal_cons hc (ih hrest)

/-- An attribute value keeps its characters or gets spaces, which are legal. -/
theorem legal_normalizeAttribute {written : List Written}
    (h : ∀ piece ∈ written, isXmlChar piece.char = true) :
    (normalizeAttribute written).all isXmlChar = true := by
  fun_induction normalizeAttribute written with
  | case1 => rfl
  | case2 rest ih =>
    obtain ⟨-, hrest⟩ := List.forall_mem_cons.mp h
    exact legal_cons (by decide) (ih (List.forall_mem_cons.mp hrest).2)
  | case3 c rest _ ih =>
    obtain ⟨hc, hrest⟩ := List.forall_mem_cons.mp h
    refine legal_cons ?_ (ih hrest)
    split
    · decide
    · exact hc
  | case4 c rest ih =>
    obtain ⟨hc, hrest⟩ := List.forall_mem_cons.mp h
    exact legal_cons hc (ih hrest)

/-- The value that is read of an attribute is legal if it is written with legal characters. -/
theorem legal_of_attributeValue {value : String} (h : attributeValue chars = some value)
    (hlegal : chars.all isXmlChar = true) : isXmlText value = true := by
  simp only [attributeValue, Option.bind_eq_bind, Option.bind_eq_some_iff, Option.some.injEq] at h
  obtain ⟨written, hwritten, rfl⟩ := h
  rw [isXmlText, String.toList_ofList]
  exact legal_normalizeAttribute (legal_of_readWritten hwritten hlegal)

/-! ## Lexemes -/

/-- The names in a tag can be told apart, and its values, as they are written, are legal. -/
structure Tag.IsSound (tag : Tag) : Prop where
  name : tag.name.IsProper
  attributeNames : ∀ raw ∈ tag.attributes, raw.name.IsProper
  values : ∀ raw ∈ tag.attributes, raw.value.all isXmlChar = true

/-- What a lexeme says can be said by a document: its tag is sound, or its text is legal. -/
def Lexeme.IsSound (lexeme : Lexeme) : Prop :=
  match lexeme.token with
  | .startTag tag => tag.IsSound
  | .emptyTag tag => tag.IsSound
  | .text => lexeme.source.all isXmlChar = true
  | .characterData content => content.all isXmlChar = true
  | _ => True

/-- What is spelled as a name is a proper one. -/
theorem QName.Spells.isProper {name : QName} (h : name.Spells source) : name.IsProper := by
  cases h with
  | bare hname => exact ⟨rfl, hname⟩
  | prefixed hscope hname => exact ⟨hscope, hname⟩

/-- The attributes that are spelled in a tag have proper names. -/
theorem AttributesSpell.isProper {raws : List RawAttribute} {closed : Bool}
    (h : AttributesSpell raws closed source) : ∀ raw ∈ raws, raw.name.IsProper := by
  induction h with
  | opened | closed => simp
  | cons _ _ hraw _ ih =>
    cases hraw with
    | mk hname => exact List.forall_mem_cons.mpr ⟨hname.isProper, ih⟩

/-- The value of an attribute is written out within its source. -/
theorem ValueSpells.subset {value : List Char} (h : ValueSpells value source) : value ⊆ source := by
  cases h with
  | quoted hbefore hafter hquote hvalue =>
    intro c hc
    simp [hc]

/-- The values that are spelled in a legal tag are legal. -/
theorem AttributesSpell.legal {raws : List RawAttribute} {closed : Bool}
    (h : AttributesSpell raws closed source) (hlegal : source.all isXmlChar = true) :
    ∀ raw ∈ raws, raw.value.all isXmlChar = true := by
  induction h with
  | opened | closed => simp
  | cons hne hspace hraw hraws ih =>
    simp only [List.all_append, Bool.and_eq_true] at hlegal
    obtain ⟨-, hraw', hrest⟩ := hlegal
    refine List.forall_mem_cons.mpr ⟨?_, ih hrest⟩
    cases hraw with
    | mk hname hvalue =>
      rw [List.all_append, Bool.and_eq_true] at hraw'
      exact legal_of_subset hvalue.subset hraw'.2

/-- A token that is spelled with legal characters says nothing that a document may not say. -/
theorem Token.Spells.isSound {token : Token} (h : token.Spells source)
    (hlegal : source.all isXmlChar = true) : Lexeme.IsSound ⟨token, source⟩ := by
  cases h with
  | startTag hname hraws =>
    simp only [List.all_cons, List.all_append, Bool.and_eq_true] at hlegal
    exact ⟨hname.isProper, hraws.isProper, hraws.legal hlegal.2.2⟩
  | emptyTag hname hraws =>
    simp only [List.all_cons, List.all_append, Bool.and_eq_true] at hlegal
    exact ⟨hname.isProper, hraws.isProper, hraws.legal hlegal.2.2⟩
  | text => exact hlegal
  | characterData hclose => exact legal_of_subset (fun c hc => by simp [hc]) hlegal
  | endTag | comment | instruction => trivial

/-- No lexeme of a legal document says anything that a document may not say. -/
theorem IsSequence.isSound {lexemes : List Lexeme} (h : IsSequence lexemes)
    (hlegal : (sourceOf lexemes).all isXmlChar = true) : ∀ lexeme ∈ lexemes, lexeme.IsSound := by
  induction lexemes with
  | nil => simp
  | cons lexeme rest ih =>
    obtain ⟨hspells, -, hsequence⟩ := h
    rw [sourceOf_cons, List.all_append, Bool.and_eq_true] at hlegal
    exact List.forall_mem_cons.mpr ⟨hspells.isSound hlegal.1, ih hsequence hlegal.2⟩

/-! ## Trees -/

/-- All tags of a tree are sound, and what its texts say is legal. -/
inductive Tree.IsSound : Tree → Prop
  | element {tag : Tag} {opening closing : List Char} {content : List Tree} (htag : tag.IsSound)
      (hcontent : ∀ tree ∈ content, IsSound tree) : IsSound (.element tag opening content closing)
  | text {source : List Char} (h : source.all isXmlChar = true) : IsSound (.text source)
  | characterData {content source : List Char} (h : content.all isXmlChar = true) :
      IsSound (.characterData content source)
  | aside {source : List Char} : IsSound (.aside source)

/-- A node that is one of several was nested from lexemes of theirs. -/
theorem Tree.mem_lexemesOf {tree : Tree} {trees : List Tree} (h : tree ∈ trees) :
    tree.lexemes ⊆ Tree.lexemesOf trees := by
  induction trees with
  | nil => cases h
  | cons first rest ih =>
    rw [lexemesOf]
    rcases List.mem_cons.mp h with rfl | hrest
    · exact List.subset_append_left ..
    · exact fun lexeme hlexeme => List.mem_append_right _ (ih hrest hlexeme)

/-- A tree is as sound as the lexemes that it is made of. -/
theorem Tree.Shaped.isSound {tree : Tree} (h : tree.Shaped)
    (hsound : ∀ lexeme ∈ tree.lexemes, lexeme.IsSound) : tree.IsSound := by
  induction h with
  | @element tag opening closing content hclosing hcontent ih =>
    rw [Tree.lexemes] at hsound
    cases closing with
    | nil =>
      rw [hclosing rfl]
      exact .element (hsound _ List.mem_cons_self) (by simp)
    | cons c closing =>
      obtain ⟨htag, hinside⟩ := List.forall_mem_cons.mp hsound
      refine .element htag fun child hchild => ih child hchild fun lexeme hlexeme => ?_
      exact hinside lexeme (List.mem_append_left _ (mem_lexemesOf hchild hlexeme))
  | text => exact .text (hsound _ List.mem_cons_self)
  | characterData => exact .characterData (hsound _ List.mem_cons_self)
  | aside => exact .aside

/-- What follows an attribute is part of what was read. -/
theorem subset_of_readAttribute {raw : RawAttribute} (h : readAttribute chars = some (raw, rest)) :
    rest ⊆ chars := by
  obtain ⟨source, -, rfl⟩ := readAttribute_eq_some_iff.mp h
  exact List.subset_append_right ..

/-- Skipping a separator leaves part of what was there. -/
theorem subset_of_skipSeparator (h : skipSeparator chars = some rest) : rest ⊆ chars := by
  unfold skipSeparator at h
  split at h
  · cases h
    exact List.dropWhile_subset _
  · split at h
    · cases h
      exact List.Subset.refl _
    · cases h

/-- Skipping a part of the declaration leaves part of what was there, whether or not it is there. -/
theorem subset_of_skipDeclared {name : List Char} (h : skipDeclared name chars = some rest) :
    rest ⊆ chars := by
  unfold skipDeclared at h
  split at h
  · obtain ⟨⟨raw, after⟩, hread, rfl⟩ := Option.map_eq_some_iff.mp h
    exact subset_of_readAttribute hread
  · cases h
    exact List.Subset.refl _

/-- What follows the declaration is part of what was there. -/
theorem subset_of_skipDeclaration (h : skipDeclaration chars = some rest) : rest ⊆ chars := by
  simp only [skipDeclaration, Option.bind_eq_bind, Option.bind_eq_some_iff] at h
  obtain ⟨start, hstart, h⟩ := h
  have hend {next last : List Char} (hlast : skipDeclared "standalone".toList next = some last)
      (hclosed : skipSpace last = '?' :: '>' :: rest) : rest ⊆ next := by
    refine List.Subset.trans (fun c hc => List.dropWhile_subset isSpace ?_)
      (subset_of_skipDeclared hlast)
    rw [← skipSpace, hclosed]
    exact List.mem_cons_of_mem _ (List.mem_cons_of_mem _ hc)
  split at h
  · simp only [Option.bind_eq_some_iff, Prod.exists] at h
    obtain ⟨raw, version, hread, next, hnext, h⟩ := h
    have hnext : next ⊆ chars := List.Subset.trans (subset_of_skipSeparator hnext) <|
      List.Subset.trans (subset_of_readAttribute hread) (subset_of_skipSeparator hstart)
    split at h
    · simp only [Option.bind_eq_some_iff] at h
      obtain ⟨encoded, ⟨declared, hdeclared, hencoded⟩, last, hlast, h⟩ := h
      split at h
      · next hclosed =>
        cases h
        exact List.Subset.trans (hend hlast hclosed) <|
          List.Subset.trans (subset_of_skipSeparator hencoded) <|
          List.Subset.trans (subset_of_skipDeclared hdeclared) hnext
      · cases h
    · rw [Option.bind_some] at h
      obtain ⟨last, hlast, h⟩ := Option.bind_eq_some_iff.mp h
      split at h
      · next hclosed =>
        cases h
        exact List.Subset.trans (hend hlast hclosed) hnext
      · cases h
  · cases h

/-- What follows the declaration is part of the document. -/
theorem subset_of_skipProlog (h : skipProlog chars = some rest) : rest ⊆ chars := by
  have hopening (rest' : List Char) :
      ' ' :: rest' ⊆ '<' :: '?' :: 'x' :: 'm' :: 'l' :: ' ' :: rest' := by
    intro c hc
    simp only [List.mem_cons] at hc ⊢
    simp [hc]
  unfold skipProlog at h
  dsimp only at h
  split at h
  · next body heq =>
    have hbody := List.Subset.trans (subset_of_skipDeclaration h) (hopening body)
    split at heq
    · rw [heq]
      exact List.Subset.trans hbody (List.subset_cons_self ..)
    · rw [heq]
      exact hbody
  · cases h
    split
    · exact List.subset_cons_self ..
    · exact List.Subset.refl _

/-- The root is made of lexemes of a document, all of whose characters are legal. -/
theorem exists_lexemes_of_readTree {root : Tree} (h : readTree chars = some root) :
    root.Shaped ∧ ∃ lexemes, root.lexemes ⊆ lexemes ∧ IsSequence lexemes ∧
      (sourceOf lexemes).all isXmlChar = true := by
  obtain ⟨hlegal, trees, hbody, hsequence, hshaped, hroot⟩ := readTree_eq_some_iff.mp h
  have hsource : (sourceOf (Tree.lexemesOf trees)).all isXmlChar = true := by
    rw [sourceOf_lexemesOf hshaped]
    exact legal_of_subset (subset_of_skipProlog hbody) hlegal
  obtain ⟨before, after, tag, opening, content, closing, -, htrees, -, -⟩ :=
    rootOf?_eq_some_iff.mp hroot
  have hmem : root ∈ trees := by
    rw [htrees]
    exact List.mem_append_right _ List.mem_cons_self
  exact ⟨hshaped root hmem, _, Tree.mem_lexemesOf hmem, hsequence, hsource⟩

/-- What is read of a document is sound at every depth. -/
theorem isSound_of_readTree {root : Tree} (h : readTree chars = some root) : root.IsSound := by
  obtain ⟨hshaped, lexemes, hlexemes, hsequence, hsource⟩ := exists_lexemes_of_readTree h
  exact hshaped.isSound fun lexeme hlexeme => hsequence.isSound hsource lexeme (hlexemes hlexeme)

/-! ## Nodes -/

/-- What a node and those in it say is legal. -/
inductive Node.IsLegal : Node → Prop
  | element {uri : Option String} {name : String} {attributes : List Attribute}
      {children : List Node} {opening closing : List Char}
      (hvalues : ∀ candidate ∈ attributes, isXmlText candidate.value = true)
      (hchildren : ∀ child ∈ children, IsLegal child) :
      IsLegal (.element uri name attributes children opening closing)
  | text {content first later : List Char} (h : content.all isXmlChar = true) :
      IsLegal (.text content first later)
  | aside {source : List Char} : IsLegal (.aside source)

/-- What holds of the nodes holds after merging, if it holds of texts put together. -/
theorem forall_mem_mergeText {test : Node → Prop}
    (htext : ∀ content first later content' first' later', test (.text content first later) →
      test (.text content' first' later') →
      test (.text (content ++ content') first (later ++ first' ++ later')))
    {nodes : List Node} (h : ∀ node ∈ nodes, test node) : ∀ node ∈ mergeText nodes, test node := by
  induction nodes with
  | nil => simp [mergeText]
  | cons first rest ih =>
    obtain ⟨hfirst, hrest⟩ := List.forall_mem_cons.mp h
    have hmerged := ih hrest
    unfold mergeText
    split
    · next heq =>
      rw [heq] at hmerged
      obtain ⟨hnext, hlater⟩ := List.forall_mem_cons.mp hmerged
      exact List.forall_mem_cons.mpr ⟨htext _ _ _ _ _ _ hfirst hnext, hlater⟩
    · exact List.forall_mem_cons.mpr ⟨hfirst, hmerged⟩

/-- Merging texts keeps what they say legal. -/
theorem isLegal_mergeText {nodes : List Node} (h : ∀ node ∈ nodes, node.IsLegal) :
    ∀ node ∈ mergeText nodes, node.IsLegal := by
  refine forall_mem_mergeText (fun _ _ _ _ _ _ hleft hright => ?_) h
  cases hleft with
  | text hcontent =>
    cases hright with
    | text hcontent' => exact .text (by rw [List.all_append, hcontent, hcontent']; rfl)

/-- Where a step succeeds at every item, each of the images is that of an item. -/
theorem exists_of_mem_mapM {α β : Type} {f : α → Option β} {items : List α} {images : List β}
    (h : items.mapM f = some images) {image : β} (hmem : image ∈ images) :
    ∃ item ∈ items, f item = some image := by
  induction items generalizing images with
  | nil =>
    cases h
    cases hmem
  | cons item rest ih =>
    simp only [List.mapM_cons, Option.bind_eq_bind, Option.bind_eq_some_iff, Option.pure_def,
      Option.some.injEq] at h
    obtain ⟨first, hfirst, later, hlater, rfl⟩ := h
    rcases List.mem_cons.mp hmem with rfl | hmem
    · exact ⟨item, List.mem_cons_self, hfirst⟩
    · obtain ⟨found, hfound, himage⟩ := ih hlater hmem
      exact ⟨found, List.mem_cons_of_mem _ hfound, himage⟩

/-- Where a step succeeds at every item, each of the items has an image. -/
theorem exists_image_of_mem_mapM {α β : Type} {f : α → Option β} {items : List α}
    {images : List β} (h : items.mapM f = some images) {item : α} (hmem : item ∈ items) :
    ∃ image, f item = some image := by
  induction items generalizing images with
  | nil => cases hmem
  | cons first rest ih =>
    simp only [List.mapM_cons, Option.bind_eq_bind, Option.bind_eq_some_iff] at h
    obtain ⟨image, himage, later, hlater, -⟩ := h
    rcases List.mem_cons.mp hmem with rfl | hmem
    · exact ⟨image, himage⟩
    · exact ih hlater hmem

/-- What an attribute is read as: a declaration, nothing, or itself. -/
theorem declared_cases {raw : RawAttribute} {declaration : Declared}
    (h : declared raw = some declaration) : ∃ value, attributeValue raw.value = some value ∧
      ((∃ scope, declaration = .binding (scope, value) ∧ value ≠ xmlNamespace ∧
        value ≠ xmlnsNamespace) ∨ declaration = .idle ∨
        (declaration = .plain raw.name value ∧ raw.name.localPart ≠ "xmlns".toList)) := by
  simp only [declared, Option.bind_eq_bind, Option.bind_eq_some_iff] at h
  obtain ⟨value, hvalue, h⟩ := h
  refine ⟨value, hvalue, ?_⟩
  split at h
  · split at h
    · cases h
    · next hxmlns =>
      split at h
      · split at h <;> cases h
        exact .inr (.inl rfl)
      · split at h <;> cases h
        next hxml => exact .inl ⟨_, rfl, hxml, hxmlns⟩
  · split at h
    · split at h <;> cases h
      next hne => exact .inl ⟨_, rfl, fun heq => hne (.inl heq), fun heq => hne (.inr heq)⟩
    · next hlocal =>
      cases h
      exact .inr (.inr ⟨rfl, hlocal⟩)

/-- What is read as an attribute was written as one, with its own name and value. -/
theorem exists_raw_of_attributesOf {scope : List Binding} {raws : List RawAttribute}
    {declarations : List Declared} {attributes : List Attribute}
    (hdeclared : raws.mapM declared = some declarations)
    (h : attributesOf scope declarations = some attributes) :
    ∀ candidate ∈ attributes, ∃ raw ∈ raws, raw.name.localPart ≠ "xmlns".toList ∧
      candidate.localName = String.ofList raw.name.localPart ∧
      attributeNamespace scope raw.name = some candidate.namespaceUri ∧
      attributeValue raw.value = some candidate.value := by
  intro candidate hcandidate
  simp only [attributesOf, Option.bind_eq_bind, Option.bind_eq_some_iff,
    Option.ite_none_right_eq_some, Option.some.injEq] at h
  obtain ⟨resolved, hresolved, -, rfl⟩ := h
  obtain ⟨⟨name, value⟩, hplain, hcandidate⟩ := exists_of_mem_mapM hresolved hcandidate
  obtain ⟨declaration, hdeclaration, hsome⟩ := List.mem_filterMap.mp hplain
  obtain ⟨raw, hraw, hread⟩ := exists_of_mem_mapM hdeclared hdeclaration
  obtain ⟨uri, huri, hattribute⟩ := Option.bind_eq_some_iff.mp hcandidate
  cases hattribute
  obtain ⟨_, hvalue, ⟨_, rfl, -⟩ | rfl | ⟨rfl, hlocal⟩⟩ := declared_cases hread
  · cases hsome
  · cases hsome
  · cases hsome
    exact ⟨raw, hraw, hlocal, rfl, huri, hvalue⟩

/-- The attributes of a legal tag have legal values. -/
theorem legal_of_attributesOf {scope : List Binding} {raws : List RawAttribute}
    {declarations : List Declared} {attributes : List Attribute}
    (hdeclared : raws.mapM declared = some declarations)
    (h : attributesOf scope declarations = some attributes)
    (hlegal : ∀ raw ∈ raws, raw.value.all isXmlChar = true) :
    ∀ candidate ∈ attributes, isXmlText candidate.value = true := by
  intro candidate hcandidate
  obtain ⟨raw, hraw, -, -, -, hvalue⟩ :=
    exists_raw_of_attributesOf hdeclared h candidate hcandidate
  exact legal_of_attributeValue hvalue (hlegal raw hraw)

/-- Nodes in a row are resolved one by one in the same scope. -/
theorem resolveAll_eq_mapM (scope : List Binding) (trees : List Tree) :
    resolveAll scope trees = trees.mapM (resolve scope) := by
  induction trees with
  | nil => rfl
  | cons tree rest ih =>
    rw [resolveAll, ih, List.mapM_cons]
    rfl

/-- What a sound tree is resolved to says nothing illegal, whatever the scope. -/
theorem Tree.IsSound.isLegal_resolve {tree : Tree} (h : tree.IsSound) {scope : List Binding}
    {node : Node} (hnode : Xml.resolve scope tree = some node) : node.IsLegal := by
  induction h generalizing scope node with
  | element htag hcontent ih =>
    obtain ⟨declarations, bindings, uri, attributes, children, hdeclared, -, -, hattributes,
      hchildren, rfl⟩ := resolve_element_eq_some_iff.mp hnode
    refine .element (legal_of_attributesOf hdeclared hattributes htag.values)
      (isLegal_mergeText fun child hchild => ?_)
    rw [resolveAll_eq_mapM] at hchildren
    obtain ⟨tree, htree, hresolved⟩ := exists_of_mem_mapM hchildren hchild
    exact ih tree htree hresolved
  | text hsource =>
    simp only [Xml.resolve, Option.bind_eq_bind, Option.bind_eq_some_iff, Option.some.injEq]
      at hnode
    obtain ⟨written, hwritten, rfl⟩ := hnode
    exact .text (legal_normalizeText (legal_of_readWritten hwritten hsource))
  | characterData hcontent =>
    cases hnode
    refine .text (legal_normalizeText fun piece hpiece => ?_)
    obtain ⟨c, hc, rfl⟩ := List.mem_map.mp hpiece
    exact List.all_eq_true.mp hcontent c hc
  | aside =>
    cases hnode
    exact .aside

/-- Everything that is read from a document is legal. -/
theorem isLegal_of_parse? {text : String} {root : Node} (h : parse? text = some root) :
    root.IsLegal := by
  simp only [parse?, Option.bind_eq_bind, Option.bind_eq_some_iff] at h
  obtain ⟨tree, htree, hroot⟩ := h
  exact (isSound_of_readTree htree).isLegal_resolve hroot

/-! ## Escaping -/

/-- Escaping markup makes no character legal that is not, and none illegal. -/
theorem all_escapeMarkup (c : Char) : (escapeMarkup c).all isXmlChar = isXmlChar c := by
  unfold escapeMarkup
  split
  iterate 5 decide
  · simp

/-- Escaping for text makes no character legal that is not, and none illegal. -/
theorem all_escapeTextChar (c : Char) : (escapeTextChar c).all isXmlChar = isXmlChar c := by
  unfold escapeTextChar
  split
  · next hc =>
    subst hc
    decide
  · exact all_escapeMarkup c

/-- Escaping for values makes no character legal that is not, and none illegal. -/
theorem all_escapeAttributeChar (c : Char) :
    (escapeAttributeChar c).all isXmlChar = isXmlChar c := by
  unfold escapeAttributeChar
  split
  · next hc =>
    subst hc
    decide
  · split
    · next hc =>
      subst hc
      decide
    · exact all_escapeTextChar c

/-- Escaping hides no illegal character. -/
theorem isXmlText_escapeText (text : String) : isXmlText (escapeText text) = isXmlText text := by
  rw [isXmlText, escapeText, String.toList_ofList, List.all_flatMap]
  exact congrArg (text.toList.all ·) (funext all_escapeTextChar)

/-- Escaping a value hides no illegal character either. -/
theorem isXmlText_escapeAttribute (text : String) :
    isXmlText (escapeAttribute text) = isXmlText text := by
  rw [isXmlText, escapeAttribute, String.toList_ofList, List.all_flatMap]
  exact congrArg (text.toList.all ·) (funext all_escapeAttributeChar)

end RemoteCall.Xml
