import RemoteCall.Proofs.Xml.Declarations

/-!
# Attributes with line ends

Where only markup is escaped, the line ends and tabs of an attribute value are written as they
are, and reading makes spaces of them. The value that is read is the one that was written with
every line end and every tab flattened, so it is the same only if there are none.
-/

namespace RemoteCall.Xml

/-! ## Values -/

/-- Makes a space of every tab and every line end; a carriage return and the line feed behind it
are one line end. -/
def flatten : List Char → List Char
  | [] => []
  | '\r' :: '\n' :: rest => ' ' :: flatten rest
  | c :: rest => (if isKeptInValue c then c else ' ') :: flatten rest

/-- What is read of an attribute value in which only markup has been escaped. -/
def flattened (text : String) : String :=
  String.ofList (flatten text.toList)

/-- Flattening leaves a character at least of every value but the empty one. -/
theorem flatten_eq_nil_iff {chars : List Char} : flatten chars = [] ↔ chars = [] := by
  fun_cases flatten chars <;> simp

/-- A value that is not empty is not empty afterwards. -/
theorem flattened_ne_empty {text : String} (h : text ≠ "") : flattened text ≠ "" := by
  intro hempty
  have hnil : flatten text.toList = [] := by
    rw [← String.toList_ofList (l := flatten text.toList)]
    exact congrArg String.toList hempty
  exact h (String.toList_inj.mp (flatten_eq_nil_iff.mp hnil))

/-- Flattening changes nothing exactly if there is no line end and no tab. -/
theorem flatten_eq_self_iff {chars : List Char} :
    flatten chars = chars ↔ ∀ c ∈ chars, isKeptInValue c = true := by
  fun_induction flatten chars with
  | case1 => simp
  | case2 rest => simp [isKeptInValue]
  | case3 c rest _ ih =>
    have hspace : isKeptInValue ' ' = true := by decide
    rw [List.cons.injEq, ih, List.forall_mem_cons]
    refine and_congr_left fun _ => ?_
    split
    · next hkept => simp [hkept]
    · next hkept =>
      refine iff_of_false ?_ hkept
      rintro rfl
      exact hkept hspace

/-- Only a value without line ends and tabs stays as it is. -/
theorem flattened_eq_self_iff {text : String} : flattened text = text ↔ isOneLine text = true := by
  rw [← String.toList_inj, flattened, String.toList_ofList, flatten_eq_self_iff, isOneLine,
    List.all_eq_true]

/-- Line ends and tabs are written plainly. -/
theorem isKeptInValue_of_escapeMarkup_ne {c : Char} (h : escapeMarkup c ≠ [c]) :
    isKeptInValue c = true := by
  by_cases hc : c ∈ ['\n', '\r', '\t']
  · simp only [List.mem_cons, List.not_mem_nil, or_false] at hc
    rcases hc with rfl | rfl | rfl <;> exact absurd rfl h
  · simp_all [isKeptInValue]

/-- A value in which only markup is escaped is read flattened. -/
theorem normalizeAttribute_writtenBy (chars : List Char) :
    normalizeAttribute (chars.map (writtenBy escapeMarkup)) = flatten chars := by
  have hplain {c : Char} (h : escapeMarkup c = [c]) : writtenBy escapeMarkup c = .plain c :=
    if_pos h
  fun_induction flatten chars with
  | case1 => rfl
  | case2 rest ih =>
    rw [List.map_cons, List.map_cons, hplain rfl, hplain rfl, normalizeAttribute, ih]
  | case3 c rest hnext ih =>
    rw [List.map_cons]
    by_cases hescape : escapeMarkup c = [c]
    · rw [hplain hescape, normalizeAttribute, ih]
      · cases hc : isKeptInValue c <;> simp_all [isKeptInValue]
      · -- a line feed that is read as one has been written as one
        intro later hfeed hreturn
        obtain ⟨d, tail, rfl, hd, -⟩ := List.map_eq_cons_iff.mp hfeed
        have hchar := char_writtenBy escapeMarkup d
        rw [hd] at hchar
        exact hnext tail hreturn (by rw [← hchar]; rfl)
    · have hreference : writtenBy escapeMarkup c = .reference c := if_neg hescape
      rw [hreference, normalizeAttribute, ih, if_pos (isKeptInValue_of_escapeMarkup_ne hescape)]

/-- Where only markup has been escaped, the flattened text is read. -/
theorem attributeValue_escapePlain (text : String) :
    attributeValue (escapePlain text).toList = some (flattened text) := by
  rw [escapePlain, String.toList_ofList]
  simp [attributeValue, isReadable_escapeMarkup.readWritten_flatMap, normalizeAttribute_writtenBy,
    flattened]

/-! ## Tags -/

/-- A tag with a single attribute, both without a prefix. -/
def plainTag (name key value : String) : Tag :=
  ⟨⟨[], name.toList⟩, [⟨⟨[], key.toList⟩, (escapePlain value).toList⟩]⟩

variable {name key value : String}

/-- The start tag is that of a name with one attribute. -/
theorem start_plainTag :
    (plainTag name key value).start = .startTag name [(key, escapePlain value)] := by
  simp [plainTag, Tag.start, RawAttribute.written, QName.text]

/-- The end tag is that of the name. -/
theorem finish_plainTag : (plainTag name key value).finish = .endTag name := by
  simp [plainTag, Tag.finish, QName.text]

/-- The tag can be written whenever its two names are names and its value is legal. -/
theorem isWritable_plainTag (hname : isNamePart name.toList = true)
    (hkey : isNamePart key.toList = true) (hvalue : isXmlText value = true) :
    (plainTag name key value).IsWritable :=
  ⟨⟨rfl, hname⟩, List.forall_mem_singleton.mpr
    ⟨⟨rfl, hkey⟩, isConfined_escapeMarkup.forall_mem_escaped hvalue⟩⟩

/-- Where there is no default namespace, the element has none and neither has its attribute. -/
theorem resolve_plainTag (name key value : String) {scope : List Binding}
    (hscope : lookUp scope none = none) (hkey : key ≠ "xmlns") {content : List Tree}
    {nodes : List Node} (hnodes : resolveAll scope content = some nodes)
    (opening closing : List Char) :
    resolve scope (.element (plainTag name key value) opening content closing) =
      some (.element none name [⟨none, key, flattened value⟩] (mergeText nodes) opening
        closing) := by
  have hlocal : key.toList ≠ "xmlns".toList := fun heq => hkey (String.toList_inj.mp heq)
  have hdeclared : declared ⟨⟨[], key.toList⟩, (escapePlain value).toList⟩ =
      some (.plain ⟨[], key.toList⟩ (flattened value)) :=
    declared_eq_plain (attributeValue_escapePlain value) (by simp) hlocal
  refine resolve_element_eq_some_iff.mpr ⟨[.plain ⟨[], key.toList⟩ (flattened value)], [], none,
    [⟨none, key, flattened value⟩], nodes, ?_, rfl, ?_, ?_, hnodes, ?_⟩
  · simp [plainTag, hdeclared]
  · simp [elementNamespace, plainTag, hscope]
  · simp [attributesOf, attributeNamespace]
  · simp [plainTag]

end RemoteCall.Xml
