import RemoteCall.Proofs.CallResult.RoundTrip
import RemoteCall.Proofs.Xml.Flattening

/-!
# Codes and names in attributes

The error code of a result and the names of its parameters are written as attributes in which
only markup is escaped, unlike the attributes of a data section. So a result with line ends or
tabs in its code or in a name is read with spaces in their place, and no other is changed.
-/

namespace RemoteCall.CallResult

open Xml Element

variable {name key value code : String}

/-! ## Elements with one attribute -/

/-- Content between the tags of an element with one attribute is read as such an element. -/
theorem readsAs_plainTag (name key : String) (hname : isNamePart name.toList = true)
    (hkey : isNamePart key.toList = true) (hne : key ≠ "xmlns") (hvalue : isXmlText value = true)
    {trees : List Tree} {nodes : List Node} {source : List Char} (hcontent : IsContent trees source)
    (hnodes : resolveAll [] trees = some nodes) :
    ∃ elements tree opening closing,
      ReadsAs [] ((plainTag name key value).start.render ++ source ++
          (plainTag name key value).finish.render) elements [tree]
        [.element none name [⟨none, key, flattened value⟩] (mergeText nodes) opening closing] := by
  have hscope : lookUp [] none = none := rfl
  have hwritten := (isWritable_plainTag hname hkey hvalue).isContent hcontent
  have hmarkup : StartsMarkup ((plainTag name key value).start.render ++ source ++
      (plainTag name key value).finish.render) := by
    rw [start_plainTag, List.append_assoc]
    exact startsMarkup_cons
  exact ⟨_, _, _, _, .of_resolve hwritten hmarkup (resolve_plainTag _ _ _ hscope hne hnodes _ _)⟩

/-- Escaped text between the tags of a parameter is its value. -/
theorem parameterValue_escapeText (value : String) (source : List Char) :
    parameterValue (mergeText [.text value.toList source []]) = value := by
  simp [mergeText, parameterValue, isElement, textOfNodes]

/-- A parameter is read under its flattened name. -/
theorem exists_readsAs_flattened (hname : isXmlText name = true) (hvalue : isXmlText value = true)
    (hnameNe : name ≠ "") (hvalueNe : value ≠ "") :
    ∃ elements tree opening closing content,
      ReadsAs [] (charsOf (parameterMarkup none name value)) elements [tree]
        [.element none "param" [⟨none, "name", flattened name⟩] content opening closing] ∧
      parameterValue content = value := by
  have hresolved : resolveAll [] [.text (escapeText value).toList] =
      some [.text value.toList (escapeText value).toList []] := by
    simp [resolveAll, resolve_escapeText]
  obtain ⟨elements, tree, opening, closing, hreads⟩ :=
    readsAs_plainTag "param" "name" (by decide) (by decide) (by decide) hname
      (isContent_escapeText hvalueNe hvalue) hresolved
  have hsource : (plainTag "param" "name" name).start.render ++ (escapeText value).toList ++
      (plainTag "param" "name" name).finish.render =
        charsOf (parameterMarkup none name value) := by
    rw [start_plainTag, finish_plainTag, parameterMarkup, if_neg (by simp [hnameNe, hvalueNe])]
    simp [charsOf, isRaw]
  rw [hsource] at hreads
  exact ⟨elements, tree, opening, closing, _, hreads, parameterValue_escapeText value _⟩

/-! ## Results -/

/-- A result with an error code and one parameter. -/
def withOne (code name value : String) : CallResult :=
  make (some code) (Dictionary.empty.insert name value) none

/-- The result has the code that it was given, as that is not empty. -/
theorem code_withOne (hcode : code ≠ "") (name value : String) :
    (withOne code name value).code = some code := by
  rw [withOne, make, nonEmpty_eq_self (by simpa using hcode)]

/-- The document of a result with a code and one parameter, tag by tag. -/
theorem toList_toXml_withOne (hcode : code ≠ "") (name value : String) :
    ((withOne code name value).toXml none).toList = Markup.declaration.render ++
      ((plainTag "result" "errorcode" code).start.render ++
        charsOf (parameterMarkup none name value) ++
        (plainTag "result" "errorcode" code).finish.render) := by
  rw [toXml, Markup.textOf, String.toList_ofList, markup, code_withOne hcode, start_plainTag,
    finish_plainTag]
  simp [withOne, make, Dictionary.insert, Dictionary.empty, Entries.insert, charsOf]

/-- A code that stands in `errorcode` alone is read as it is. -/
theorem readCode_errorcode (hcode : code ≠ "") :
    readCode [⟨none, "errorcode", code⟩] = .ok (some code) := by
  have hne : some code ≠ some "" := by simpa using hcode
  exact readCode_rootElement hne

/-- What is read of a result with an error code and one parameter has the line ends and tabs of
both names flattened. -/
theorem parse_toXml_withOne (hcode : isXmlText code = true) (hname : isXmlText name = true)
    (hvalue : isXmlText value = true) (hcodeNe : code ≠ "") (hnameNe : name ≠ "")
    (hvalueNe : value ≠ "") :
    parse ((withOne code name value).toXml none).toUTF8 =
      .ok (withOne (flattened code) (flattened name) value) := by
  obtain ⟨elements, tree, opening, closing, content, hreads, hcontent⟩ :=
    exists_readsAs_flattened hname hvalue hnameNe hvalueNe
  have hwritable : (plainTag "result" "errorcode" code).IsWritable :=
    isWritable_plainTag (by decide) (by decide) hcode
  have hinside := hwritable.isContent hreads.content
  have hscope : lookUp [] none = none := rfl
  have hnode := resolve_plainTag "result" "errorcode" code hscope
    (by decide) hreads.resolved (plainTag "result" "errorcode" code).start.render
    (plainTag "result" "errorcode" code).finish.render
  rw [mergeText_eq_self hreads.areElements] at hnode
  have hchars := toList_toXml_withOne hcodeNe name value
  have hlegal : ((withOne code name value).toXml none).toList.all isXmlChar = true := by
    rw [hchars, List.all_append, hinside.legal]
    decide
  have hbody := skipProlog_declaration ((plainTag "result" "errorcode" code).start.render ++
    charsOf (parameterMarkup none name value) ++
      (plainTag "result" "errorcode" code).finish.render)
  rw [← hchars] at hbody
  have hhead : ((withOne code name value).toXml none).toList.head? = some '<' := by
    rw [hchars]
    rfl
  have hchildren : readChildren Dictionary.empty none
      [.element none "param" [⟨none, "name", flattened name⟩] content opening closing] =
        .ok (Dictionary.empty.insert (flattened name) value, none) := by
    rw [readChildren_param (flattened_ne_empty hnameNe) rfl, withParameter, hcontent,
      if_neg hvalueNe]
    rfl
  rw [parse_toUTF8 hhead (parse?_of_isContent hlegal hbody hinside hnode)]
  exact ofRoot_eq_ok (strayText?_eq_none hreads.areElements)
    (readCode_errorcode (flattened_ne_empty hcodeNe)) hchildren _ _

/-- Results with one parameter are equal only if their codes and names are. -/
theorem withOne_inj {code' name' : String} (hcode : code ≠ "") (hcode' : code' ≠ "")
    (h : withOne code name value = withOne code' name' value) : code = code' ∧ name = name' := by
  have hcodes := congrArg CallResult.code h
  rw [code_withOne hcode, code_withOne hcode'] at hcodes
  have hget : (Dictionary.empty.insert name value).get? name =
      (Dictionary.empty.insert name' value).get? name :=
    congrArg (fun result => result.parameters.get? name) h
  simp only [Dictionary.get?_insert, if_true, Dictionary.get?_empty] at hget
  split at hget
  · next heq => exact ⟨Option.some.inj hcodes, heq.symm⟩
  · cases hget

/-- **The error code and the name of a parameter are read with spaces for line ends and tabs**,
and so the result that was written is read only if there are none. -/
theorem parse_toXml_withOne_iff (hcode : isXmlText code = true) (hname : isXmlText name = true)
    (hvalue : isXmlText value = true) (hcodeNe : code ≠ "") (hnameNe : name ≠ "")
    (hvalueNe : value ≠ "") :
    parse ((withOne code name value).toXml none).toUTF8 =
        .ok (withOne (flattened code) (flattened name) value) ∧
      (parse ((withOne code name value).toXml none).toUTF8 = .ok (withOne code name value) ↔
        isOneLine code = true ∧ isOneLine name = true) := by
  have hparse := parse_toXml_withOne hcode hname hvalue hcodeNe hnameNe hvalueNe
  refine ⟨hparse, ?_⟩
  rw [hparse, Except.ok.injEq]
  constructor
  · intro hsame
    obtain ⟨hcodes, hnames⟩ := withOne_inj (flattened_ne_empty hcodeNe) hcodeNe hsame
    exact ⟨flattened_eq_self_iff.mp hcodes, flattened_eq_self_iff.mp hnames⟩
  · rintro ⟨hcodes, hnames⟩
    rw [flattened_eq_self_iff.mpr hcodes, flattened_eq_self_iff.mpr hnames]

/-- A tab in the code, and a line end of two characters in the name. -/
theorem parse_toXml_withOne_iff_lines :
    parse ((withOne "Not\tFound" "first\r\nname" "1 < 2\r").toXml none).toUTF8 =
      .ok (withOne "Not Found" "first name" "1 < 2\r") :=
  (parse_toXml_withOne_iff (show isXmlText "Not\tFound" = true by decide)
    (show isXmlText "first\r\nname" = true by decide) (show isXmlText "1 < 2\r" = true by decide)
    (by decide) (by decide) (by decide)).1

/-- A code with a tab is read with a space, and so is a name with a line end. -/
theorem not_parse_toXml_withOne :
    parse ((withOne "A\tB" "n" "v").toXml none).toUTF8 ≠ .ok (withOne "A\tB" "n" "v") ∧
      parse ((withOne "A" "n\nm" "v").toXml none).toUTF8 ≠ .ok (withOne "A" "n\nm" "v") := by
  constructor
  · rw [parse_toXml_withOne (by decide) (by decide) (by decide) (by decide) (by decide) (by decide)]
    intro h
    exact absurd (withOne_inj (by decide) (by decide) (Except.ok.inj h)).1 (by decide)
  · rw [parse_toXml_withOne (by decide) (by decide) (by decide) (by decide) (by decide) (by decide)]
    intro h
    exact absurd (withOne_inj (by decide) (by decide) (Except.ok.inj h)).2 (by decide)

end RemoteCall.CallResult
