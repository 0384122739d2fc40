import RemoteCall.Proofs.CallResult.RoundTrip
import RemoteCall.Proofs.Element.Legality

/-!
# Results that can be read

A result whose names are ordinary, and of which nothing is written as markup, is written as a
document that is read back if, and only if, the document holds legal characters only.
-/

namespace RemoteCall.CallResult

open Xml Element

/-- A data section with ordinary names and legal texts can be carried by a document. -/
theorem isPortableData_of_every {data : Element} (hname : data.localName = "data")
    (hsimple : data.Every fun node => node.IsRegular ∧ node.IsSimple)
    (hlegal : data.Every IsLegal) : IsPortableData data where
  built := built_iff_every_isRegular.mpr (hsimple.mono fun _ hnode => hnode.1)
  name := hname
  plain := (hsimple.and hlegal).mono fun _ hnode => hnode.1.2.isPlain hnode.2

variable {spec : Option FunctionSpec} {result : CallResult}

/-- The names in a result are ordinary, and no value is written as markup. -/
structure IsShaped (spec : Option FunctionSpec) (result : CallResult) : Prop where
  code : ∀ code ∈ result.code, code ≠ "" ∧ isXmlText code = true ∧ isOneLine code = true
  name : ∀ entry ∈ result.parameters.entries, entry.1 ≠ "" ∧ isXmlText entry.1 = true ∧
    isOneLine entry.1 = true
  escaped : ∀ name, isRaw spec name = false
  data : ∀ data ∈ result.data, data.localName = "data" ∧
    data.Every fun node => node.IsRegular ∧ node.IsSimple

/-- The values and texts in a result are legal. -/
structure HoldsLegal (result : CallResult) : Prop where
  value : ∀ entry ∈ result.parameters.entries, isXmlText entry.2 = true
  data : ∀ data ∈ result.data, data.Every IsLegal

/-- A result of the right shape can be carried by a document if all it holds is legal. -/
theorem IsShaped.isPortable (h : result.IsShaped spec) (hlegal : result.HoldsLegal) :
    result.IsPortable spec where
  code := fun code hcode => (h.code code hcode).2
  parameters :=
    { name := fun entry hentry => (h.name entry hentry).2
      escaped := fun entry hentry _ => hlegal.value entry hentry
      raw := by
        intro entry _ _ _ hraw
        rw [h.escaped entry.1] at hraw
        cases hraw }
  data := by
    intro data hdata
    obtain ⟨hname, hsimple⟩ := h.data data hdata
    exact isPortableData_of_every hname hsimple (hlegal.data data hdata)

/-- A result with legal values can be read. -/
theorem IsShaped.exists_parse (h : result.IsShaped spec) (hlegal : result.HoldsLegal) :
    ∃ parsed, parse (result.toXml spec).toUTF8 = .ok parsed := by
  have hcode : result.code ≠ some "" := fun heq => (h.code "" heq).1 rfl
  obtain ⟨parameters, -, hparse⟩ := (h.isPortable hlegal).exists_parse_eq hcode
  exact ⟨_, hparse⟩

/-- What is written of a result is legal only if its values and texts are. -/
theorem IsShaped.holdsLegal (h : result.IsShaped spec)
    (hlegal : isXmlText (result.toXml spec) = true) : result.HoldsLegal := by
  rw [isXmlText, toXml, Markup.textOf, String.toList_ofList, markup] at hlegal
  simp only [List.flatMap_cons, List.flatMap_append, List.all_append, Bool.and_eq_true] at hlegal
  obtain ⟨-, -, ⟨hparameters, hdata⟩, -⟩ := hlegal
  constructor
  · intro entry hentry
    by_cases hempty : entry.2 = ""
    · rw [hempty]
      rfl
    have hneither : ¬ (entry.1 = "" ∨ entry.2 = "") := not_or.mpr ⟨(h.name entry hentry).1, hempty⟩
    rw [List.all_flatMap, List.all_flatMap] at hparameters
    have hwritten := List.all_eq_true.mp hparameters entry hentry
    rw [parameterMarkup, if_neg hneither, h.escaped] at hwritten
    simp only [List.all_cons, Bool.and_eq_true, render_text] at hwritten
    rw [← isXmlText_escapeText]
    exact hwritten.2.1
  · rintro data hmem
    rw [hmem, Option.map_some, Option.getD_some] at hdata
    exact every_isLegal_of_markupIn (h.data data hmem).2 hdata

/-- A document that is read as a result is legal all through. -/
theorem isXmlText_of_parse {text : String} (hhead : text.toList.head? = some '<')
    {parsed : CallResult} (h : parse text.toUTF8 = .ok parsed) : isXmlText text = true := by
  simp only [parse, Text.Utf8.fromUTF8?_toUTF8, parseText, dropByteOrderMark_eq_self hhead] at h
  split at h
  · next root hroot =>
    simp only [Xml.parse?, Option.bind_eq_bind, Option.bind_eq_some_iff] at hroot
    obtain ⟨tree, htree, -⟩ := hroot
    exact (readTree_eq_some_iff.mp htree).1
  · cases h

/-- **What is written can be read exactly if it holds legal characters only.** -/
theorem IsShaped.exists_parse_iff (h : result.IsShaped spec) :
    (∃ parsed, parse (result.toXml spec).toUTF8 = .ok parsed) ↔
      isXmlText (result.toXml spec) = true := by
  constructor
  · rintro ⟨parsed, hparse⟩
    refine isXmlText_of_parse ?_ hparse
    rw [toXml, Markup.textOf, String.toList_ofList]
    rfl
  · exact fun hlegal => h.exists_parse (h.holdsLegal hlegal)

end RemoteCall.CallResult
