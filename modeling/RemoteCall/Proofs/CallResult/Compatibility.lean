import RemoteCall.Proofs.CallResult.Grammar

/-!
# Results with extensions, in any order

A provider of a later version may write more than a reader knows, and may write it in another
order. Children that the reader does not know are passed over with all that they contain, the
order of the others does not matter, and neither does where text is cut by what stands between.
-/

namespace RemoteCall.CallResult

open Xml Element

/-- A node that says nothing to a reader of results, if it stands right under the root. -/
inductive IsExtension : Node → Prop where
  | aside (source : List Char) : IsExtension (.aside source)
  | blank {content first later : List Char} (h : content.all Text.isBlank = true) :
      IsExtension (.text content first later)
  | qualified (uri name : String) (attributes : List Attribute) (content : List Node)
      (opening closing : List Char) :
      IsExtension (.element (some uri) name attributes content opening closing)
  | unknown {name : String} (uri : Option String) (attributes : List Attribute)
      (content : List Node) (opening closing : List Char) (hparam : name ≠ "param")
      (hdata : name ≠ "data") :
      IsExtension (.element uri name attributes content opening closing)

/-- The nodes differ in their order, in extensions, and in where their text is cut. -/
inductive Rearranged : List Node → List Node → Prop where
  | reordered {nodes nodes' : List Node} (h : nodes.Perm nodes') : Rearranged nodes nodes'
  | extended {extra : Node} (before after : List Node) (h : IsExtension extra) :
      Rearranged (before ++ after) (before ++ extra :: after)
  | cut (before after : List Node) (left right : List Char)
      (first later firstLeft laterLeft firstRight laterRight : List Char) :
      Rearranged (before ++ .text (left ++ right) first later :: after)
        (before ++ .text left firstLeft laterLeft :: .text right firstRight laterRight :: after)
  | symm {nodes nodes' : List Node} (h : Rearranged nodes nodes') : Rearranged nodes' nodes
  | trans {first second third : List Node} (h : Rearranged first second)
      (h' : Rearranged second third) : Rearranged first third

/-! ## What is seen of the children -/

/-- The text among nodes in two rows is blank if it is in both. -/
theorem hasBlankText_append (nodes nodes' : List Node) :
    HasBlankText (nodes ++ nodes') ↔ HasBlankText nodes ∧ HasBlankText nodes' := by
  simp only [HasBlankText, List.mem_append]
  grind

/-- The text among nodes is blank if that of the first is and that of the others. -/
theorem hasBlankText_cons (node : Node) (nodes : List Node) :
    HasBlankText (node :: nodes) ↔ HasBlankText [node] ∧ HasBlankText nodes :=
  hasBlankText_append [node] nodes

/-- A text node is blank if all its characters are. -/
theorem hasBlankText_text {content first later : List Char} :
    HasBlankText [.text content first later] ↔ content.all Text.isBlank = true := by
  constructor
  · intro h
    exact h content first later List.mem_cons_self
  · intro h content first later hmem
    obtain ⟨rfl, -⟩ := Node.text.inj (List.mem_singleton.mp hmem)
    exact h

/-- Nothing is seen of an extension. -/
theorem IsExtension.isPassedOver {extra : Node} (h : IsExtension extra)
    (value? : String → List Attribute → Option String) :
    parameterOf? value? extra = none ∧ dataOf? extra = none ∧ HasBlankText [extra] := by
  cases h with
  | aside source => exact ⟨rfl, rfl, by simp [HasBlankText]⟩
  | blank h => exact ⟨rfl, rfl, hasBlankText_text.mpr h⟩
  | qualified => exact ⟨by simp [parameterOf?], by simp [dataOf?], by simp [HasBlankText]⟩
  | unknown uri attributes content opening closing hparam hdata =>
    exact ⟨by simp [parameterOf?, hparam], by simp [dataOf?, hdata], by simp [HasBlankText]⟩

/-- The nodes look alike: blank text or not, the same parameters and the same data sections. -/
structure LookAlike (value? : String → List Attribute → Option String)
    (nodes nodes' : List Node) : Prop where
  text : HasBlankText nodes ↔ HasBlankText nodes'
  parameters :
    (nodes.filterMap (parameterOf? value?)).Perm (nodes'.filterMap (parameterOf? value?))
  data : (nodes.filterMap dataOf?).Perm (nodes'.filterMap dataOf?)

variable {value? : String → List Attribute → Option String} {nodes nodes' : List Node}

/-- Looking alike goes both ways. -/
theorem LookAlike.symm (h : LookAlike value? nodes nodes') : LookAlike value? nodes' nodes :=
  ⟨h.text.symm, h.parameters.symm, h.data.symm⟩

/-- Nodes that have been rearranged look alike, however the values of attributes are found. -/
theorem Rearranged.lookAlike (h : Rearranged nodes nodes')
    (value? : String → List Attribute → Option String) : LookAlike value? nodes nodes' := by
  induction h with
  | reordered h =>
    refine ⟨?_, h.filterMap _, h.filterMap _⟩
    simp only [HasBlankText, h.mem_iff]
  | extended before after h =>
    obtain ⟨hparameter, hdata, htext⟩ := h.isPassedOver value?
    constructor
    · rw [hasBlankText_append, hasBlankText_append, hasBlankText_cons _ after]
      simp only [htext, true_and]
    · rw [List.filterMap_append, List.filterMap_append, List.filterMap_cons_none hparameter]
    · rw [List.filterMap_append, List.filterMap_append, List.filterMap_cons_none hdata]
  | cut before after left right =>
    constructor
    · rw [hasBlankText_append, hasBlankText_append, hasBlankText_cons _ after,
        hasBlankText_cons _ (_ :: after), hasBlankText_cons _ after, hasBlankText_text,
        hasBlankText_text, hasBlankText_text, List.all_append, Bool.and_eq_true, and_assoc]
    · rw [List.filterMap_append, List.filterMap_append]
      rfl
    · rw [List.filterMap_append, List.filterMap_append]
      rfl
  | symm _ ih => exact ih.symm
  | trans _ _ ih ih' =>
    exact ⟨ih.text.trans ih'.text, ih.parameters.trans ih'.parameters, ih.data.trans ih'.data⟩

/-! ## What is read -/

namespace LookAlike

variable {attributes : List Attribute}

/-- Of nodes that look alike, one keeps to the grammar if the other does: it speaks of nothing else.
-/
theorem isGrammatical (h : LookAlike value? nodes nodes')
    (hgrammatical : IsGrammatical value? attributes nodes) :
    IsGrammatical value? attributes nodes' where
  text := h.text.mp hgrammatical.text
  codes := hgrammatical.codes
  named := fun entry hentry => hgrammatical.named entry (h.parameters.mem_iff.mpr hentry)
  values := fun name first second hfirst hsecond =>
    hgrammatical.values name first second (h.parameters.mem_iff.mpr hfirst)
      (h.parameters.mem_iff.mpr hsecond)
  data := h.data.length_eq ▸ hgrammatical.data

/-- Only where there is one data section at most, its place does not matter. -/
theorem isDescribed (h : LookAlike value? nodes nodes')
    (hgrammatical : IsGrammatical value? attributes nodes) {result : CallResult}
    (hdescribed : IsDescribed value? attributes nodes result) :
    IsDescribed value? attributes nodes' result where
  code := hdescribed.code
  parameters := by
    intro name value
    rw [hdescribed.parameters, h.parameters.mem_iff]
  data := by
    have hsame : nodes.filterMap dataOf? = nodes'.filterMap dataOf? := by
      have hlength := hgrammatical.data
      have hdata := h.data
      cases hsections : nodes.filterMap dataOf? with
      | nil =>
        rw [hsections] at hdata
        exact hdata.nil_eq
      | cons root rest =>
        obtain rfl : rest = [] := by simpa [hsections] using hlength
        rw [hsections] at hdata
        exact hdata.singleton_eq
    rw [hdescribed.data, hsame]

/-- Roots whose children look alike are read alike. -/
theorem ofRoot_eq_ok_iff (h : LookAlike attributeNamed? nodes nodes') {uri : Option String}
    {name : String} {opening closing opening' closing' : List Char} {result : CallResult} :
    ofRoot (.element uri name attributes nodes opening closing) = .ok result ↔
      ofRoot (.element uri name attributes nodes' opening' closing') = .ok result := by
  by_cases hroot : uri = none ∧ name = "result"
  · obtain ⟨rfl, rfl⟩ := hroot
    rw [ofRoot_result_eq_ok_iff, ofRoot_result_eq_ok_iff]
    constructor
    · rintro ⟨hgrammatical, hdescribed⟩
      exact ⟨h.isGrammatical hgrammatical, h.isDescribed hgrammatical hdescribed⟩
    · rintro ⟨hgrammatical, hdescribed⟩
      exact ⟨h.symm.isGrammatical hgrammatical, h.symm.isDescribed hgrammatical hdescribed⟩
  · -- neither is read
    rw [CallResult.ofRoot_eq_ok_iff, CallResult.ofRoot_eq_ok_iff]
    grind

end LookAlike

/-- **Forward compatibility.** Of two documents that differ in extensions under the root and in
the order of its children, one is read if and only if the other is, and as the same result. -/
theorem parse_eq_ok_iff_of_rearranged {bytes bytes' : ByteArray} {uri : Option String}
    {name : String} {attributes : List Attribute} {opening closing opening' closing' : List Char}
    (hroot : documentRoot? bytes = some (.element uri name attributes nodes opening closing))
    (hroot' : documentRoot? bytes' = some (.element uri name attributes nodes' opening' closing'))
    (h : Rearranged nodes nodes') (result : CallResult) :
    parse bytes = .ok result ↔ parse bytes' = .ok result := by
  rw [parse_of_documentRoot? hroot, parse_of_documentRoot? hroot']
  exact (h.lookAlike attributeNamed?).ofRoot_eq_ok_iff

/-- A parameter as a child of a result. -/
def countNode : Node :=
  .element none "param" [⟨none, "name", "count"⟩] [.text ['1'] ['1'] []]
    "<param name='count'>".toList "</param>".toList

/-- A data section as a child of a result. -/
def rowsNode : Node :=
  .element none "data" [] [.element none "row" [] [] "<row/>".toList []]
    "<data>".toList "</data>".toList

/-- A child of a later version, with a parameter inside. -/
def pageNode : Node :=
  .element none "page" [] [.element none "param" [⟨none, "name", "count"⟩]
    [.text ['2'] ['2'] []] "<param name='count'>".toList "</param>".toList]
    "<page>".toList "</page>".toList

/-- The earlier answer has two children, the parameter and the data section. -/
theorem documentRoot?_currentAnswer : documentRoot?
    "<result><param name='count'>1</param><data><row/></data></result>".toUTF8 =
      some (.element none "result" [] [countNode, rowsNode]
        "<result>".toList "</result>".toList) := by
  rw [documentRoot?_toUTF8]
  decide +kernel

/-- The later answer has the same two in another order, beside a comment, a space and an element of
its own. -/
theorem documentRoot?_laterAnswer : documentRoot?
    ("<result><!--2--><data><row/></data> <page><param name='count'>2</param></page>" ++
      "<param name='count'>1</param></result>").toUTF8 =
      some (.element none "result" []
        [.aside "<!--2-->".toList, rowsNode, .text [' '] [' '] [], pageNode, countNode]
        "<result>".toList "</result>".toList) := by
  rw [documentRoot?_toUTF8]
  decide +kernel

/-- The later answer comes of the earlier one in four steps: three extensions, and a new order. -/
theorem rearranged_laterAnswer : Rearranged [countNode, rowsNode]
    [.aside "<!--2-->".toList, rowsNode, .text [' '] [' '] [], pageNode, countNode] := by
  have hpage : IsExtension pageNode := .unknown none _ _ _ _ (by decide) (by decide)
  have hblank : IsExtension (.text [' '] [' '] []) := .blank (by decide)
  have hordered : Rearranged [countNode, rowsNode] [rowsNode, countNode] :=
    .reordered (.swap rowsNode countNode [])
  have hpaged : Rearranged [rowsNode, countNode] [rowsNode, pageNode, countNode] :=
    .extended [rowsNode] [countNode] hpage
  have hspaced : Rearranged [rowsNode, pageNode, countNode]
      [rowsNode, .text [' '] [' '] [], pageNode, countNode] :=
    .extended [rowsNode] [pageNode, countNode] hblank
  exact ((hordered.trans hpaged).trans hspaced).trans (.extended [] _ (.aside _))

/-- The later answer is read as the earlier one, and the parameter within the new element is not. -/
theorem parse_laterAnswer : parse
    ("<result><!--2--><data><row/></data> <page><param name='count'>2</param></page>" ++
      "<param name='count'>1</param></result>").toUTF8 =
      .ok ⟨none, Dictionary.empty.insert "count" "1",
        some (.mk "data" none [] [.mk "row" none [] [] none] none)⟩ := by
  refine (parse_eq_ok_iff_of_rearranged documentRoot?_currentAnswer documentRoot?_laterAnswer
    rearranged_laterAnswer _).mp ?_
  rw [parse_of_documentRoot? documentRoot?_currentAnswer]
  rfl

end RemoteCall.CallResult
