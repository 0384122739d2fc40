import RemoteCall.Proofs.CallResult.Grammar
import RemoteCall.Proofs.Text.Slice
import RemoteCall.Proofs.Xml.Surroundings

/-!
# Parameters that are cut out of the document

The value of a parameter that holds elements is cut out of the text of the document, from where
its first node begins to where its last one ends. Both lie between characters, so something can
always be cut out. It is all that stands between the tags, but for character data at the end that
was merged from several pieces: of that the first piece is taken for the whole.
-/

namespace RemoteCall.CallResult

open Xml Element Text

/-! ## Ranges -/

/-- The bytes of a node that begins at a position. Those of a text are the bytes of its first
piece. -/
def rangeFrom (start : Nat) : Node → Nat × Nat
  | .text _ first _ => (start, start + byteCount first)
  | node => (start, start + byteCount node.source)

/-- The bytes of nodes one after the other. -/
def rangesFrom (start : Nat) : List Node → List (Nat × Nat)
  | [] => []
  | node :: rest => rangeFrom start node :: rangesFrom (start + byteCount node.source) rest

/-- What is cut out of the text from the beginning of the first node to the end of the last. The
first begins at `start`. -/
def cutOut? (text : String) (start : Nat) (content : List Node) : Option String :=
  match (rangesFrom start content).head?, (rangesFrom start content).getLast? with
  | some first, some last => slice? text first.1 last.2
  | _, _ => none

/-- The first range begins where the nodes do. -/
theorem head?_rangesFrom {start : Nat} {content : List Node} (h : content ≠ []) :
    ((rangesFrom start content).head?).map Prod.fst = some start := by
  obtain ⟨node, rest, rfl⟩ := List.exists_cons_of_ne_nil h
  cases node <;> rfl

/-- The last range ends where what is told of the nodes does. -/
theorem getLast?_rangesFrom {start : Nat} {content : List Node} (h : content ≠ []) :
    ((rangesFrom start content).getLast?).map Prod.snd =
      some (start + byteCount (Node.verbatim content)) := by
  induction content generalizing start with
  | nil => exact absurd rfl h
  | cons node rest ih =>
    cases rest with
    | nil => cases node <;> simp [rangesFrom, rangeFrom, Node.verbatim]
    | cons next rest =>
      have hrest := @ih (start + byteCount node.source) (List.cons_ne_nil next rest)
      have hverbatim : Node.verbatim (node :: next :: rest) =
          node.source ++ Node.verbatim (next :: rest) := by
        rw [Node.verbatim]
        simp
      rw [hverbatim, byteCount_append, ← Nat.add_assoc, ← hrest]
      simp [rangesFrom]

/-- Where nodes are in the text, what is told of them is cut out. -/
theorem cutOut?_eq_some {text : String} {before after : List Char} {content : List Node}
    (hne : content ≠ []) (htext : text.toList = before ++ Node.sources content ++ after) :
    cutOut? text (byteCount before) content = some (String.ofList (Node.verbatim content)) := by
  obtain ⟨first, hfirst, hstart⟩ := Option.map_eq_some_iff.mp (head?_rangesFrom hne)
  obtain ⟨last, hlast, hstop⟩ := Option.map_eq_some_iff.mp (getLast?_rangesFrom hne)
  have hsplit : text.toList =
      before ++ Node.verbatim content ++ (laterPieces content ++ after) := by
    rw [htext, sources_eq_append]
    simp
  rw [cutOut?, hfirst, hlast]
  change slice? text first.1 last.2 = _
  rw [hstart, hstop]
  exact slice?_eq_some hsplit

/-! ## Parameters -/

/-- The text of a document, after one byte order mark. -/
def documentText? (bytes : ByteArray) : Option String :=
  (String.fromUTF8? bytes).map dropByteOrderMark

/-- The content of a parameter stands in the text between a start tag and its end tag. The value of
the parameter is cut out of the text, and only the later pieces of character data at the end are
missing in it. -/
structure IsCutOut (text : String) (lead start : List Char) (content : List Node)
    (finish trail : List Char) : Prop where
  text_eq : text.toList = lead ++ (start ++ Node.sources content ++ finish) ++ trail
  tags : ∃ tag, (Token.startTag tag).Spells start ∧ (Token.endTag tag.name).Spells finish
  cutOut : cutOut? text (byteCount (lead ++ start)) content = some (parameterValue content)
  value : String.ofList (Node.sources content) =
    parameterValue content ++ String.ofList (laterPieces content)
  complete : parameterValue content = String.ofList (Node.sources content) ↔
    endsInPieces content = false

/-- What is told of nodes with an element among them is not empty. -/
theorem verbatim_ne_nil {nodes : List Node} {node : Node} (hmem : node ∈ nodes)
    (helement : node.IsElement) (hsource : node.source ≠ []) : Node.verbatim nodes ≠ [] := by
  fun_induction Node.verbatim nodes with
  | case1 => cases hmem
  | case2 =>
    rw [List.mem_singleton] at hmem
    subst hmem
    cases helement
  | case3 first rest _ ih =>
    rcases List.mem_cons.mp hmem with rfl | hrest
    · exact List.append_ne_nil_of_left_ne_nil hsource _
    · exact List.append_ne_nil_of_right_ne_nil _ (ih hrest)

/-- An element of a document is not read from nothing. -/
theorem source_ne_nil_of_parse? {text : String} {frames : List NodeFrame} {node : Node}
    (hnode : node.IsElement) (h : parse? text = some (NodeFrame.fillAll frames node)) :
    node.source ≠ [] := by
  obtain ⟨-, -, scope, tree, -, hcontent, hresolve, -⟩ := exists_place hnode h
  obtain ⟨tag, opening, content, closing, rfl⟩ := exists_element_of_resolve hresolve hnode
  obtain ⟨tail, htail⟩ := hcontent.exists_cons
  rw [htail]
  exact List.cons_ne_nil '<' tail

/-- Where there are elements among the nodes, one of the nodes is an element. -/
theorem exists_isElement_of_any {content : List Node} (h : content.any isElement = true) :
    ∃ node ∈ content, node.IsElement := by
  obtain ⟨node, hmem, hnode⟩ := List.any_eq_true.mp h
  cases node with
  | element => exact ⟨_, hmem, trivial⟩
  | text | aside => cases hnode

/-- What is told of a parameter with elements in it is its verbatim source. -/
theorem parameterValue_eq_verbatim {content : List Node} (h : content.any isElement = true) :
    parameterValue content = String.ofList (Node.verbatim content) :=
  if_pos h

section Place

variable {text : String} {frames : List NodeFrame} {uri : Option String} {name : String}
  {attributes : List Attribute} {content : List Node} {start finish : List Char}

/-- An element that holds nodes stands between a start tag and its end tag. -/
theorem exists_tags_of_parse? (hne : content ≠ [])
    (h : parse? text =
      some (NodeFrame.fillAll frames (.element uri name attributes content start finish))) :
    ∃ tag, (Token.startTag tag).Spells start ∧ (Token.endTag tag.name).Spells finish := by
  obtain ⟨-, -, scope, tree, -, hcontent, hresolve, -⟩ := exists_place (by trivial) h
  obtain ⟨tag, inside, _, _, nodes, rfl, -, -, -, -, hnodes, -, rfl⟩ :=
    exists_of_resolve_eq_element hresolve
  have hclosing : finish ≠ [] := by
    rintro rfl
    cases hcontent.shaped _ List.mem_cons_self with
    | element hempty =>
      rw [hempty rfl] at hnodes
      cases hnodes
      exact hne rfl
  exact ⟨tag, (hcontent.of_element hclosing).1, (hcontent.of_element hclosing).2.1⟩

/-- The value that an element has if it is a parameter is cut out of the document. -/
theorem exists_isCutOut_of_parse? (hany : content.any isElement = true)
    (h : parse? text =
      some (NodeFrame.fillAll frames (.element uri name attributes content start finish))) :
    ∃ lead trail,
      IsCutOut text (lead ++ NodeFrame.before frames) start content finish
        (NodeFrame.after frames ++ trail) := by
  have hne : content ≠ [] := by
    rintro rfl
    cases hany
  obtain ⟨lead, trail, -, -, htext, -⟩ := exists_place (by trivial) h
  have hcut := @cutOut?_eq_some text (lead ++ NodeFrame.before frames ++ start)
    (finish ++ (NodeFrame.after frames ++ trail)) content hne (by simpa [Node.source] using htext)
  have hvalue := parameterValue_eq_verbatim hany
  refine ⟨lead, trail, by simpa [Node.source] using htext, exists_tags_of_parse? hne h, ?_, ?_, ?_⟩
  · rw [hvalue, hcut]
  · rw [hvalue, sources_eq_append, String.ofList_append]
  · rw [hvalue, String.ofList_inj, verbatim_eq_sources_iff]

/-- It is never empty. -/
theorem parameterValue_ne_empty_of_parse? (hany : content.any isElement = true)
    (h : parse? text =
      some (NodeFrame.fillAll frames (.element uri name attributes content start finish))) :
    parameterValue content ≠ "" := by
  obtain ⟨node, hmem, helement⟩ := exists_isElement_of_any hany
  obtain ⟨left, right, rfl⟩ := List.append_of_mem hmem
  have hinner : parse? text = some (NodeFrame.fillAll
      (frames ++ [⟨uri, name, attributes, start, left, right, finish⟩]) node) := by
    rw [h, NodeFrame.fillAll, NodeFrame.fillAll, List.foldr_append]
    rfl
  have hverbatim := verbatim_ne_nil hmem helement (source_ne_nil_of_parse? helement hinner)
  rw [parameterValue_eq_verbatim hany]
  intro hempty
  exact hverbatim (String.ofList_injective hempty)

end Place

/-- The value of a parameter that holds elements is cut out of the document, and reported. -/
theorem isCutOut_of_parse {bytes : ByteArray} {result : CallResult} (h : parse bytes = .ok result) :
    ∃ text attributes children opening closing, documentText? bytes = some text ∧
      documentRoot? bytes = some (.element none "result" attributes children opening closing) ∧
      ∀ left own content start finish right,
        children = left ++ .element none "param" own content start finish :: right →
        content.any isElement = true →
        ∃ lead trail name,
          IsCutOut text (lead ++ (opening ++ Node.sources left)) start content finish
            (Node.sources right ++ closing ++ trail) ∧
          nonEmpty (attributeNamed? "name" own) = some name ∧
          result.parameters.get? name = some (parameterValue content) := by
  obtain ⟨attributes, children, ⟨opening, closing, hroot⟩, hgrammatical, hdescribed⟩ :=
    parse_eq_ok_iff.mp h
  obtain ⟨text, htext, hparse⟩ := Option.bind_eq_some_iff.mp hroot
  refine ⟨dropByteOrderMark text, attributes, children, opening, closing, ?_, hroot, ?_⟩
  · rw [documentText?, htext, Option.map_some]
  rintro left own content start finish right rfl hany
  have hplace : parse? (dropByteOrderMark text) = some (NodeFrame.fillAll
      [⟨none, "result", attributes, opening, left, right, closing⟩]
      (.element none "param" own content start finish)) := hparse
  obtain ⟨lead, trail, hcut⟩ := exists_isCutOut_of_parse? hany hplace
  have hentry : (nonEmpty (attributeNamed? "name" own), parameterValue content) ∈
      (left ++ .element none "param" own content start finish :: right).filterMap
        (parameterOf? attributeNamed?) :=
    List.mem_filterMap.mpr ⟨.element none "param" own content start finish, by simp,
      parameterOf?_eq_some_iff.mpr ⟨own, content, start, finish, rfl, rfl⟩⟩
  obtain ⟨name, hname⟩ := Option.ne_none_iff_exists'.mp (hgrammatical.named _ hentry)
  have hne := parameterValue_ne_empty_of_parse? hany hplace
  refine ⟨lead, trail, name, ?_, hname, (hdescribed.parameters _ _).mpr ⟨hne, ?_⟩⟩
  · simpa [NodeFrame.before, NodeFrame.after] using hcut
  · rwa [← hname]

/-- A result that begins with a byte order mark, and a parameter with more than one byte before
its element. -/
def markedResult : String :=
  "\uFEFF<result><param name='a'>é<b/>&amp;<!--ü--></param></result>"

/-- The parameter holds a text, an element, a reference and a comment, in that order. -/
theorem documentRoot?_markedResult : documentRoot? markedResult.toUTF8 =
    some (.element none "result" []
      [.element none "param" [⟨none, "name", "a"⟩]
        [.text ['é'] ['é'] [], .element none "b" [] [] "<b/>".toList [],
          .text ['&'] "&amp;".toList [], .aside "<!--ü-->".toList]
        "<param name='a'>".toList "</param>".toList]
      "<result>".toList "</result>".toList) := by
  rw [documentRoot?_toUTF8]
  decide +kernel

/-- It is cut out between the tags, at the bytes of the text behind the mark. -/
theorem isCutOut_of_parse_markedResult :
    ∃ result content lead start finish trail, parse markedResult.toUTF8 = .ok result ∧
      IsCutOut (dropByteOrderMark markedResult) lead start content finish trail ∧
      result.parameters.get? "a" = some "é<b/>&amp;<!--ü-->" := by
  have hparse : parse markedResult.toUTF8 =
      .ok ⟨none, Dictionary.empty.insert "a" "é<b/>&amp;<!--ü-->", none⟩ := by
    rw [parse_of_documentRoot? documentRoot?_markedResult]
    rfl
  obtain ⟨text, attributes, children, opening, closing, htext, hroot, hcut⟩ :=
    isCutOut_of_parse hparse
  rw [documentRoot?_markedResult] at hroot
  obtain ⟨-, -, rfl, rfl, rfl, rfl⟩ := Node.element.inj (Option.some.inj hroot)
  obtain ⟨lead, trail, name, hcutOut, hname, hreported⟩ := hcut [] _ _ _ _ [] rfl (by decide)
  rw [documentText?, Text.Utf8.fromUTF8?_toUTF8, Option.map_some, Option.some.injEq] at htext
  subst htext
  exact ⟨_, _, _, _, _, _, hparse, hcutOut, by decide +kernel⟩

/-! ## Character data in several pieces -/

/-- The value of every parameter that holds elements is all that stands between its tags. -/
def HasWholeValues (bytes : ByteArray) : Prop :=
  ∀ attributes left own content start finish right opening closing,
    documentRoot? bytes = some (.element none "result" attributes
      (left ++ .element none "param" own content start finish :: right) opening closing) →
    content.any isElement = true → parameterValue content = String.ofList (Node.sources content)

/-- A parameter that ends in text and a `CDATA` section. -/
def piecedResult : String :=
  "<result><param name='a'><b/>x<![CDATA[y]]></param></result>"

/-- The text behind the element is merged of two pieces, and the second is that of the section. -/
theorem documentRoot?_piecedResult : documentRoot? piecedResult.toUTF8 =
    some (.element none "result" []
      [.element none "param" [⟨none, "name", "a"⟩]
        [.element none "b" [] [] "<b/>".toList [],
          .text ['x', 'y'] ['x'] "<![CDATA[y]]>".toList]
        "<param name='a'>".toList "</param>".toList]
      "<result>".toList "</result>".toList) := by
  rw [documentRoot?_toUTF8]
  decide +kernel

/-- The section is not reported. -/
theorem not_hasWholeValues_piecedResult :
    parse piecedResult.toUTF8 = .ok ⟨none, Dictionary.empty.insert "a" "<b/>x", none⟩ ∧
      ¬ HasWholeValues piecedResult.toUTF8 := by
  constructor
  · rw [parse_of_documentRoot? documentRoot?_piecedResult]
    rfl
  · intro hwhole
    have hvalue := hwhole [] [] _ _ _ _ [] _ _ documentRoot?_piecedResult (by decide)
    revert hvalue
    decide +kernel

end RemoteCall.CallResult
