import RemoteCall.Proofs.Xml.Root

/-!
# What stands before the content of a document

A byte order mark and a declaration may stand before the content of a document. Where they
end is decided before the content begins, so other content may stand behind them, and content
itself never begins with either.
-/

namespace RemoteCall.Xml

variable {chars rest : List Char}

/-! ## Declarations -/

/-- The characters are the same up to the end of a declaration. -/
def AgreeToEnd (first second : List Char) : Prop :=
  ∃ declared after after',
    first = declared ++ '?' :: '>' :: after ∧ second = declared ++ '?' :: '>' :: after'

namespace AgreeToEnd

variable {first second : List Char}

/-- The same characters may be put before both. -/
theorem append (h : AgreeToEnd first second) (dropped : List Char) :
    AgreeToEnd (dropped ++ first) (dropped ++ second) := by
  obtain ⟨declared, after, after', rfl, rfl⟩ := h
  exact ⟨dropped ++ declared, after, after', by simp, by simp⟩

/-- Agreeing goes both ways. -/
theorem symm (h : AgreeToEnd first second) : AgreeToEnd second first := by
  obtain ⟨declared, after, after', rfl, rfl⟩ := h
  exact ⟨declared, after', after, rfl, rfl⟩

/-- Both begin with the same character, at the latest with that of the end. -/
theorem head? (h : AgreeToEnd first second) : first.head? = second.head? := by
  obtain ⟨declared, after, after', rfl, rfl⟩ := h
  cases declared <;> rfl

/-- Neither is empty, as both have the end of the declaration. -/
theorem isEmpty (h : AgreeToEnd first second) : first.isEmpty = second.isEmpty := by
  obtain ⟨declared, after, after', rfl, rfl⟩ := h
  cases declared <;> rfl

/-- A name or space that ends before one of them ends before the other. -/
theorem stops (h : AgreeToEnd first second) {test : Char → Bool} (hfirst : Stops test first) :
    Stops test second := by
  rwa [Stops, ← h.head?]

/-- A name within a declaration comes before its end, so both begin with it. -/
theorem starts_of_starts (h : AgreeToEnd first second) {name : List Char} (hname : '>' ∉ name)
    (hstarts : name <+: first) : name <+: second := by
  obtain ⟨declared, after, after', rfl, rfl⟩ := h
  have hend : declared ++ ['?', '>'] <+: declared ++ '?' :: '>' :: after := ⟨after, by simp⟩
  rcases List.prefix_or_prefix_of_prefix hstarts hend with hshort | hlong
  · exact hshort.trans ⟨after', by simp⟩
  · exact absurd (hlong.subset (by simp)) hname

/-- What names a part of a declaration stands before its end, or not at all. -/
theorem isPrefixOf (h : AgreeToEnd first second) {name : List Char} (hname : '>' ∉ name) :
    name.isPrefixOf first = name.isPrefixOf second := by
  rw [Bool.eq_iff_iff, List.isPrefixOf_iff_prefix, List.isPrefixOf_iff_prefix]
  exact ⟨h.starts_of_starts hname, h.symm.starts_of_starts hname⟩

/-- If the declaration ends at once in one of them, it does in the other. -/
theorem isPrefixOf_end (h : AgreeToEnd first second) :
    ['?', '>'].isPrefixOf first = ['?', '>'].isPrefixOf second := by
  obtain ⟨declared, after, after', rfl, rfl⟩ := h
  match declared with
  | [] => rfl
  | [c] => simp [List.isPrefixOf]
  | c :: d :: declared => simp [List.isPrefixOf]

end AgreeToEnd

/-- What is dropped does not depend on anything behind the end of the declaration. -/
def DropsWithin (drop : List Char → Option (List Char)) : Prop :=
  ∀ chars rest, drop chars = some rest → ∃ dropped, chars = dropped ++ rest ∧
    ∀ rest', AgreeToEnd rest rest' → drop (dropped ++ rest') = some rest'

namespace DropsWithin

variable {drop drop' : List Char → Option (List Char)}

/-- Dropping nothing depends on nothing. -/
theorem some : DropsWithin Option.some := by
  rintro chars rest h
  cases h
  exact ⟨[], rfl, fun rest' _ => rfl⟩

/-- What never succeeds depends on nothing. -/
theorem none : DropsWithin fun _ => Option.none := by
  rintro chars rest h
  cases h

/-- Dropping twice depends on no more than each of the two does. -/
theorem bind (h : DropsWithin drop) (h' : DropsWithin drop') :
    DropsWithin fun chars => (drop chars).bind drop' := by
  rintro chars rest hdrop
  obtain ⟨middle, hmiddle, hrest⟩ := Option.bind_eq_some_iff.mp hdrop
  obtain ⟨dropped, rfl, hdropped⟩ := h chars middle hmiddle
  obtain ⟨dropped', rfl, hdropped'⟩ := h' middle rest hrest
  refine ⟨dropped ++ dropped', by simp, fun rest' hagree => ?_⟩
  rw [List.append_assoc]
  exact Option.bind_eq_some_iff.mpr
    ⟨_, hdropped _ (hagree.append dropped'), hdropped' rest' hagree⟩

/-- Which of two ways to drop is taken may be decided by a name within the declaration. -/
theorem ite (h : DropsWithin drop) (h' : DropsWithin drop') {name : List Char}
    (hname : '>' ∉ name) :
    DropsWithin fun chars => if name.isPrefixOf chars then drop chars else drop' chars := by
  rintro chars rest hdrop
  dsimp only at hdrop ⊢
  split at hdrop
  · next hnamed =>
    obtain ⟨dropped, rfl, hdropped⟩ := h chars rest hdrop
    refine ⟨dropped, rfl, fun rest' hagree => ?_⟩
    rw [← (hagree.append dropped).isPrefixOf hname, if_pos hnamed]
    exact hdropped rest' hagree
  · next hunnamed =>
    obtain ⟨dropped, rfl, hdropped⟩ := h' chars rest hdrop
    refine ⟨dropped, rfl, fun rest' hagree => ?_⟩
    rw [← (hagree.append dropped).isPrefixOf hname, if_neg hunnamed]
    exact hdropped rest' hagree

end DropsWithin

/-- Whether there is a separator is decided before the end of the declaration. -/
theorem dropsWithin_skipSeparator : DropsWithin skipSeparator := by
  rintro chars rest h
  unfold skipSeparator at h
  split at h
  · next hspace =>
    cases h
    obtain ⟨space, hspacing, hchars⟩ := exists_isSpacing_append_skipSpace chars
    refine ⟨space, hchars, fun rest' hagree => ?_⟩
    have hhead := (hagree.append space).head?
    rw [← hchars] at hhead
    rw [skipSeparator, ← hhead, if_pos hspace,
      hspacing.skipSpace_append (hagree.stops (stops_dropWhile isSpace chars))]
  · next hspace =>
    split at h
    · next hend =>
      cases h
      refine ⟨[], rfl, fun rest' hagree => ?_⟩
      rw [hagree.head?] at hspace
      rw [hagree.isEmpty, hagree.isPrefixOf_end] at hend
      rw [List.nil_append, skipSeparator, if_neg hspace, if_pos hend]
    · cases h

/-- What is written like an attribute stands before the end of the declaration. -/
theorem dropsWithin_readAttribute :
    DropsWithin fun chars => (readAttribute chars).map Prod.snd := by
  rintro chars rest h
  obtain ⟨⟨raw, rest⟩, hread, rfl⟩ := Option.map_eq_some_iff.mp h
  obtain ⟨source, hspells, rfl⟩ := readAttribute_eq_some_iff.mp hread
  refine ⟨source, rfl, fun rest' _ => ?_⟩
  have hread' : readAttribute (source ++ rest') = some (raw, rest') :=
    readAttribute_eq_some_iff.mpr ⟨source, hspells, rfl⟩
  simp [hread']

/-- A part of the declaration stands before its end, if it is there. -/
theorem dropsWithin_skipDeclared {name : List Char} (hname : '>' ∉ name) :
    DropsWithin (skipDeclared name) :=
  dropsWithin_readAttribute.ite .some hname

/-- Drops all of a declaration but its end. -/
def skipDeclarations (chars : List Char) : Option (List Char) :=
  (((((skipSeparator chars).bind fun rest =>
    if "version".toList.isPrefixOf rest then (readAttribute rest).map Prod.snd else none).bind
      skipSeparator).bind fun rest =>
    if "encoding".toList.isPrefixOf rest then
      (skipDeclared "encoding".toList rest).bind skipSeparator
    else some rest).bind (skipDeclared "standalone".toList))

/-- The parts of the declaration stand before its end, one after the other. -/
theorem dropsWithin_skipDeclarations : DropsWithin skipDeclarations := by
  refine .bind (.bind (.bind (.bind dropsWithin_skipSeparator ?_) dropsWithin_skipSeparator) ?_)
    (dropsWithin_skipDeclared (by decide))
  · exact dropsWithin_readAttribute.ite .none (by decide)
  · exact .ite (.bind (dropsWithin_skipDeclared (by decide)) dropsWithin_skipSeparator) .some
      (by decide)

/-- A declaration ends in a question mark and an angle bracket. -/
theorem skipDeclaration_eq_some_iff :
    skipDeclaration chars = some rest ↔
      ∃ space, IsSpacing space ∧
        skipDeclarations chars = some (space ++ '?' :: '>' :: rest) := by
  obtain ⟨skipEnd, hdeclarations, hend⟩ : ∃ skipEnd,
      skipDeclaration chars = (skipDeclarations chars).bind skipEnd ∧
        ∀ last, skipEnd last = some rest ↔ skipSpace last = '?' :: '>' :: rest := by
    apply Exists.intro
    constructor
    -- the last step of the reader is the one that skips the end
    · unfold skipDeclaration skipDeclarations
      simp only [Option.bind_eq_bind, Option.bind_assoc]
      refine Option.bind_congr fun start _ => ?_
      split
      · cases readAttribute start with
        | none => rfl
        | some read =>
          simp only [Option.map_some, Option.bind_some]
          refine Option.bind_congr fun next _ => ?_
          split
          · exact (Option.bind_assoc ..).symm
          · rfl
      · rfl
    · intro last
      split
      · next hlast => simp [hlast]
      · next hlast => simpa using fun h => hlast rest h
  rw [hdeclarations, Option.bind_eq_some_iff]
  constructor
  · rintro ⟨last, hlast, h⟩
    obtain ⟨space, hspace, hsplit⟩ := exists_isSpacing_append_skipSpace last
    exact ⟨space, hspace, by rw [hlast, hsplit, (hend last).mp h]⟩
  · rintro ⟨space, hspace, hlast⟩
    refine ⟨_, hlast, (hend _).mpr ?_⟩
    exact hspace.skipSpace_append (stops_isSpace_cons rfl)

/-- Where a declaration ends does not depend on what follows it. -/
theorem exists_append_of_skipDeclaration (h : skipDeclaration chars = some rest) :
    ∃ dropped, dropped ≠ [] ∧ chars = dropped ++ rest ∧
      ∀ rest', skipDeclaration (dropped ++ rest') = some rest' := by
  obtain ⟨space, hspace, hdeclarations⟩ := skipDeclaration_eq_some_iff.mp h
  obtain ⟨dropped, rfl, hdropped⟩ := dropsWithin_skipDeclarations _ _ hdeclarations
  refine ⟨dropped ++ (space ++ ['?', '>']), by simp, by simp, fun rest' => ?_⟩
  refine skipDeclaration_eq_some_iff.mpr ⟨space, hspace, ?_⟩
  have hagree : AgreeToEnd (space ++ '?' :: '>' :: rest) (space ++ '?' :: '>' :: rest') :=
    ⟨space, rest, rest', rfl, rfl⟩
  simpa using hdropped _ hagree

/-! ## Prologs -/

/-- The characters begin neither with a byte order mark nor with a declaration. -/
def IsBare (chars : List Char) : Prop :=
  chars.head? ≠ some '\uFEFF' ∧ ¬ ['<', '?', 'x', 'm', 'l', ' '] <+: chars

/-- There is nothing to skip before content. -/
theorem IsBare.skipProlog_eq (h : IsBare chars) : skipProlog chars = some chars := by
  obtain ⟨hmark, hdeclaration⟩ := h
  unfold skipProlog
  dsimp only
  split
  · next body heq =>
    split at heq
    · simp at hmark
    · exact absurd ⟨body, heq.symm⟩ hdeclaration
  · split
    · simp at hmark
    · rfl

/-- A byte order mark is all that is skipped before content. -/
theorem IsBare.skipProlog_mark (h : IsBare chars) :
    skipProlog ('\uFEFF' :: chars) = some chars := by
  unfold skipProlog
  dsimp only
  split
  · next body heq => exact absurd ⟨body, heq.symm⟩ h.2
  · rfl

/-- What stands before the content of a document can stand before any other. -/
theorem exists_append_of_skipProlog (h : skipProlog chars = some rest) :
    ∃ lead, chars = lead ++ rest ∧
      ∀ rest', IsBare rest' → skipProlog (lead ++ rest') = some rest' := by
  have hdeclared {body : List Char} (hbody : skipDeclaration (' ' :: body) = some rest) :
      ∃ lead, '<' :: '?' :: 'x' :: 'm' :: 'l' :: ' ' :: body = lead ++ rest ∧ ∀ rest',
        skipProlog (lead ++ rest') = some rest' ∧
          skipProlog ('\uFEFF' :: (lead ++ rest')) = some rest' := by
    obtain ⟨dropped, hne, hsplit, hdropped⟩ := exists_append_of_skipDeclaration hbody
    obtain ⟨c, dropped, rfl⟩ := List.exists_cons_of_ne_nil hne
    obtain ⟨rfl, rfl⟩ := List.cons.inj hsplit
    exact ⟨'<' :: '?' :: 'x' :: 'm' :: 'l' :: ' ' :: dropped, rfl, fun rest' =>
      ⟨hdropped rest', hdropped rest'⟩⟩
  unfold skipProlog at h
  dsimp only at h
  split at h
  · next body heq =>
    obtain ⟨lead, hlead, hbare⟩ := hdeclared h
    rw [← heq] at hlead
    split at hlead
    · exact ⟨'\uFEFF' :: lead, by rw [hlead]; rfl, fun rest' _ => (hbare rest').2⟩
    · exact ⟨lead, hlead, fun rest' _ => (hbare rest').1⟩
  · cases h
    split
    · exact ⟨['\uFEFF'], rfl, fun rest' hrest' => hrest'.skipProlog_mark⟩
    · exact ⟨[], rfl, fun rest' hrest' => hrest'.skipProlog_eq⟩

/-- All markup begins with an angle bracket. -/
theorem Token.Spells.exists_cons {token : Token} (h : token.Spells chars)
    (htoken : token ≠ .text) : ∃ tail, chars = '<' :: tail := by
  cases h with
  | text => exact absurd rfl htoken
  | _ => exact ⟨_, rfl⟩

/-- The content of a document begins with an angle bracket or with space. -/
theorem head?_sources {trees : List Tree} {root : Tree}
    (hshaped : ∀ tree ∈ trees, tree.Shaped) (hsequence : IsSequence (Tree.lexemesOf trees))
    (hroot : rootOf? trees = some root) :
    ∃ c ∈ (Tree.sources trees).head?, c = '<' ∨ isSpace c = true := by
  rw [← sourceOf_lexemesOf hshaped]
  cases trees with
  | nil => cases hroot
  | cons tree trees =>
    rw [Tree.lexemesOf] at hsequence ⊢
    cases tree with
    | element tag opening content closing =>
      obtain ⟨token, lexemes, hlexemes, htag⟩ := exists_lexemes_element tag opening closing content
      rw [hlexemes] at hsequence ⊢
      have htoken : token ≠ .text := by
        rintro rfl
        cases htag
      obtain ⟨tail, rfl⟩ := hsequence.1.exists_cons htoken
      exact ⟨'<', rfl, .inl rfl⟩
    | text source =>
      simp only [rootOf?, Option.ite_none_right_eq_some] at hroot
      obtain ⟨c, tail, rfl⟩ := List.exists_cons_of_ne_nil hsequence.1.ne_nil
      exact ⟨c, rfl, .inr (List.all_eq_true.mp hroot.1 c (by simp))⟩
    | characterData => cases hroot
    | aside source =>
      obtain ⟨tail, rfl⟩ := hsequence.1.exists_cons (by simp)
      exact ⟨'<', rfl, .inl rfl⟩

/-- The content of a document begins neither with a mark nor with a declaration. -/
theorem isBare_sources {trees : List Tree} {root : Tree}
    (hshaped : ∀ tree ∈ trees, tree.Shaped) (hsequence : IsSequence (Tree.lexemesOf trees))
    (hroot : rootOf? trees = some root) : IsBare (Tree.sources trees) := by
  constructor
  · intro hmark
    obtain ⟨c, hc, hstart⟩ := head?_sources hshaped hsequence hroot
    rw [hmark] at hc
    cases hc
    revert hstart
    decide
  · rintro ⟨after, hafter⟩
    rw [← sourceOf_lexemesOf hshaped] at hafter
    obtain ⟨token, rest, hread⟩ := exists_readToken hsequence hafter.symm
    cases hread

end RemoteCall.Xml
