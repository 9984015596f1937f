import PuzzleLang.Proofs.Token.Segmentation
import Mathlib.Data.Nat.Find

/-!
# Cutting on after faults

Tokens can be cut off one after the other, and cutting can go on after a fault.  Whatever a call
gives, the place after it is a place in the script, and unless the call gives the `eof` token it is
a later one.  What a call gives, a token or a fault, covers characters between the two places only,
so no character is covered twice, and there are no more calls before the `eof` token than
characters.

Letters are alphanumeric, so the start of a name is itself a part of a name, and the name is the
whole run of parts at its place.
-/

namespace PuzzleLang

variable {source cs : List Char} {place after : Cursor} {result : Except Fault Token} {start : Nat}

/-- A place in a script. -/
structure Cursor.In (place : Cursor) (source : List Char) : Prop where
  rest : place.rest = source.drop place.offset
  le : place.offset ≤ source.length

/-- The token at the end of a script. -/
def eofToken (source : List Char) : Token :=
  ⟨.eof, "", source.length⟩

/-- What a call gives is an `eof` token. -/
def IsEof (result : Except Fault Token) : Prop :=
  ∃ t, result = .ok t ∧ t.kind = .eof

/-- What a call gives covers the character at an offset.  A quoted text covers its quotes too, and
one without an end covers the rest of the script. -/
inductive Covers (source : List Char) : Except Fault Token → Nat → Prop
  | token {t : Token} {offset : Nat} :
    t.start ≤ offset → offset < t.stop → Covers source (.ok t) offset
  | character {c : Char} {offset : Nat} :
    Covers source (.error ⟨.unexpectedCharacter c, some offset⟩) offset
  | openText {start offset : Nat} :
    start ≤ offset → offset < source.length →
      Covers source (.error ⟨.unterminatedString, some start⟩) offset

/-- A call passes characters from `start` on: the place after it is a later one, and what it gives
covers some of the characters up to there and no others. -/
structure PassesFrom (source : List Char) (start : Nat) (result : Except Fault Token)
    (after : Cursor) : Prop where
  inside : after.In source
  later : start < after.offset
  noEof : ¬IsEof result
  covers : ∃ offset, Covers source result offset
  within : ∀ offset, Covers source result offset → start ≤ offset ∧ offset < after.offset

/-! ## One call -/

theorem PassesFrom.weaken
    {start' : Nat} (h : PassesFrom source start result after) (hle : start' ≤ start) :
    PassesFrom source start' result after :=
  ⟨h.inside, Nat.lt_of_le_of_lt hle h.later, h.noEof, h.covers, fun offset hcovered =>
    ⟨Nat.le_trans hle (h.within offset hcovered).1, (h.within offset hcovered).2⟩⟩

theorem Token.IsLongest.kind_ne_eof {t : Token} (h : t.IsLongest cs) : t.kind ≠ .eof := by
  obtain ⟨lexemeClass, hlexeme, -⟩ := h
  have hvalid : t.terminal.isValid = true := isValid_of_lexeme_class hlexeme
  intro heof
  have heof' : t.terminal.kind = .eof := heof
  rw [Terminal.isValid, heof'] at hvalid
  cases hvalid

theorem passesFrom_of_cutsOff
    {t : Token} (hrest : cs = source.drop start) (hcut : CutsOff cs start t after) :
    PassesFrom source start (.ok t) after := by
  have hstart : t.start = start := by rw [Token.start, hcut.textOffset, Nat.add_sub_cancel]
  have hstop : after.offset = t.stop := by rw [hcut.stop, Token.stop, hstart]
  have hlongest : t.IsLongest (source.drop t.start) := by
    rw [hstart, ← hrest]
    exact hcut.longest
  have hnonempty : t.start < t.stop := by
    obtain ⟨lexemeClass, hlexeme, -⟩ := hlongest
    exact Nat.lt_add_of_pos_right (List.length_pos_iff.mpr hlexeme.ne_nil)
  refine ⟨⟨?_, hstop ▸ hlongest.stop_le⟩, by omega, ?_, ⟨t.start, ?_⟩, ?_⟩
  · rw [hcut.rest, hrest, List.drop_drop, hcut.stop]
  · rintro ⟨t', hsame, heof⟩
    cases hsame
    exact hlongest.kind_ne_eof heof
  · exact .token (Nat.le_refl _) hnonempty
  · rintro offset (⟨hnotBefore, hbefore⟩ | _)
    omega

theorem lexeme_error_cases
    {c : Char} {fault : Fault} (h : lexeme c cs start = (.error fault, after)) :
    fault = ⟨.unexpectedCharacter c, some start⟩ ∧ after = ⟨cs, start + 1⟩ ∨
      fault = ⟨.unterminatedString, some start⟩ ∧ after = ⟨[], start + (c :: cs).length⟩ := by
  unfold lexeme at h
  split at h
  · cases h
  · split at h
    · cases h
    · split at h
      · split at h
        · rename_i hnoQuote
          cases h
          have hwhole : cs.takeWhile (· != '\'') = cs := by
            rw [← List.append_nil (cs.takeWhile _), ← hnoQuote, List.takeWhile_append_dropWhile]
          rw [hwhole, List.length_cons, Nat.add_comm cs.length, ← Nat.add_assoc]
          exact .inr ⟨rfl, rfl⟩
        · cases h
      · split at h
        · cases h
        · cases h
          exact .inl ⟨rfl, rfl⟩

theorem passesFrom_of_lexeme
    {c : Char} (hrest : c :: cs = source.drop start) (h : lexeme c cs start = (result, after)) :
    PassesFrom source start result after := by
  cases result with
  | ok t => exact passesFrom_of_cutsOff hrest (cutsOff_of_lexeme h)
  | error fault =>
    have hlength : (c :: cs).length = source.length - start := by rw [hrest, List.length_drop]
    have hnoEof : ¬IsEof (.error fault) := by
      rintro ⟨t, hsame, -⟩
      cases hsame
    rw [List.length_cons] at hlength
    rcases lexeme_error_cases h with ⟨rfl, rfl⟩ | ⟨rfl, rfl⟩
    · refine ⟨⟨?_, ?_⟩, Nat.lt_succ_self _, hnoEof, ⟨start, .character⟩, ?_⟩
      · rw [← List.drop_drop, ← hrest, List.drop_one, List.tail_cons]
      · dsimp only
        omega
      · rintro offset (_ | _)
        exact ⟨Nat.le_refl _, Nat.lt_succ_self _⟩
    · have hend : start + (c :: cs).length = source.length := by
        rw [List.length_cons]
        omega
      rw [hend]
      refine ⟨⟨?_, Nat.le_refl _⟩, ?_, hnoEof, ⟨start, .openText (Nat.le_refl _) ?_⟩, ?_⟩
      · rw [List.drop_length]
      · dsimp only
        omega
      · omega
      · rintro offset (_ | _ | ⟨hnotBefore, hbefore⟩)
        exact ⟨hnotBefore, hbefore⟩

/-- A call gives the `eof` token, and the end of the script is the place after it; or it passes some
characters. -/
theorem nextToken_cases (hinside : place.In source) :
    nextToken place = (.ok (eofToken source), ⟨[], source.length⟩) ∨
      PassesFrom source place.offset (nextToken place).1 (nextToken place).2 := by
  rw [nextToken]
  split
  · rename_i offset hskipped
    obtain ⟨gap, hsplit, hoffset, -⟩ := skipLayout_isGap hskipped
    have hend : offset = source.length := by
      have hlength := congrArg List.length hsplit
      rw [hinside.rest, List.append_nil, List.length_drop] at hlength
      have hpassed : offset = place.offset + gap.length := hoffset
      have hle := hinside.le
      omega
    rw [hend]
    exact .inl rfl
  · rename_i c cs offset hskipped
    obtain ⟨gap, hsplit, hoffset, -⟩ := skipLayout_isGap hskipped
    have hpassed : offset = place.offset + gap.length := hoffset
    have hrest : c :: cs = source.drop offset := by
      rw [hpassed, ← List.drop_drop, ← hinside.rest, hsplit, List.drop_left]
    exact .inr ((passesFrom_of_lexeme hrest rfl).weaken (by omega))

/-! ## Call after call -/

/-- The place after a number of calls, failed ones included. -/
def placeAfter (source : List Char) : Nat → Cursor
  | 0 => .start source
  | n + 1 => (nextToken (placeAfter source n)).2

/-- What a call gives after `n` other calls. -/
def callAfter (source : List Char) (n : Nat) : Except Fault Token :=
  (nextToken (placeAfter source n)).1

theorem placeAfter_in (source : List Char) (n : Nat) : (placeAfter source n).In source := by
  induction n with
  | zero => exact ⟨rfl, Nat.zero_le _⟩
  | succ n ih =>
    rw [placeAfter]
    rcases nextToken_cases ih with heof | hpasses
    · rw [heof]
      exact ⟨(List.drop_length).symm, Nat.le_refl _⟩
    · exact hpasses.inside

theorem callAfter_cases (source : List Char) (n : Nat) :
    callAfter source n = .ok (eofToken source) ∧ placeAfter source (n + 1) = ⟨[], source.length⟩ ∨
      PassesFrom source (placeAfter source n).offset (callAfter source n)
        (placeAfter source (n + 1)) := by
  rw [callAfter, placeAfter]
  rcases nextToken_cases (placeAfter_in source n) with heof | hpasses
  · rw [heof]
    exact .inl ⟨rfl, rfl⟩
  · exact .inr hpasses

theorem passesFrom_of_not_isEof {n : Nat} (h : ¬IsEof (callAfter source n)) :
    PassesFrom source (placeAfter source n).offset (callAfter source n)
      (placeAfter source (n + 1)) := by
  rcases callAfter_cases source n with ⟨heof, -⟩ | hpasses
  · exact absurd ⟨_, heof, rfl⟩ h
  · exact hpasses

/-- Once the end is reached, every call gives the same token and stays there. -/
theorem callAfter_of_isEof {n m : Nat} (h : IsEof (callAfter source n)) (hle : n ≤ m) :
    callAfter source m = .ok (eofToken source) ∧
      placeAfter source (m + 1) = ⟨[], source.length⟩ := by
  induction m, hle using Nat.le_induction with
  | base =>
    rcases callAfter_cases source n with heof | hpasses
    · exact heof
    · exact absurd h hpasses.noEof
  | succ m _ ih =>
    have hagain : nextToken (placeAfter source (m + 1)) =
        (.ok (eofToken source), ⟨[], source.length⟩) := by
      rw [ih.2]
      rfl
    exact ⟨congrArg Prod.fst hagain, congrArg Prod.snd hagain⟩

theorem placeAfter_offset_le {n m : Nat} (hle : n ≤ m) :
    (placeAfter source n).offset ≤ (placeAfter source m).offset := by
  induction m, hle using Nat.le_induction with
  | base => exact Nat.le_refl _
  | succ m _ ih =>
    refine Nat.le_trans ih ?_
    rcases callAfter_cases source m with ⟨-, hatEnd⟩ | hpasses
    · rw [hatEnd]
      exact (placeAfter_in source m).le
    · exact Nat.le_of_lt hpasses.later

theorem covered_between {n offset : Nat} (h : Covers source (callAfter source n) offset) :
    (placeAfter source n).offset ≤ offset ∧ offset < (placeAfter source (n + 1)).offset := by
  rcases callAfter_cases source n with ⟨heof, -⟩ | hpasses
  · rw [heof] at h
    cases h with
    | token hnotBefore hbefore => exact absurd hbefore (Nat.not_lt.mpr hnotBefore)
  · exact hpasses.within offset h

/-- The text of a token starts among the characters that its call passes. -/
theorem offset_passed
    {n : Nat} {t : Token} (h : callAfter source n = .ok t) (hnoEof : t.kind ≠ .eof) :
    (placeAfter source n).offset ≤ t.offset ∧ t.offset < (placeAfter source (n + 1)).offset := by
  have hnotIsEof : ¬IsEof (callAfter source n) := by
    rintro ⟨t', hsame, heof⟩
    cases h.symm.trans hsame
    exact hnoEof heof
  have hpasses := passesFrom_of_not_isEof hnotIsEof
  have hcovers := hpasses.covers
  have hwithin := hpasses.within
  rw [h] at hcovers hwithin
  obtain ⟨offset, ⟨hnotBefore, hbefore⟩⟩ := hcovers
  have hnonempty : t.start < t.stop := Nat.lt_of_le_of_lt hnotBefore hbefore
  have hfirst := hwithin t.start (.token (Nat.le_refl _) hnonempty)
  have hlast := hwithin (t.stop - 1) (.token (by omega) (by omega))
  rw [Token.stop] at hlast hnonempty
  have hquotes : t.quotes < t.terminal.written.length := Token.quotes_lt (by omega)
  rw [Token.start] at hlast hnonempty hfirst
  omega

theorem offset_between {n : Nat} {t : Token} (h : callAfter source n = .ok t) :
    (placeAfter source n).offset ≤ t.offset ∧ t.offset ≤ (placeAfter source (n + 1)).offset := by
  by_cases heof : t.kind = .eof
  · obtain ⟨hgives, hatEnd⟩ := callAfter_of_isEof ⟨t, h, heof⟩ (Nat.le_refl n)
    cases h.symm.trans hgives
    rw [hatEnd]
    exact ⟨(placeAfter_in source n).le, Nat.le_refl _⟩
  · have hpassed := offset_passed h heof
    exact ⟨hpassed.1, Nat.le_of_lt hpassed.2⟩

theorem not_covers_of_lt
    {i j offset : Nat} (hlt : i < j) (h : Covers source (callAfter source i) offset) :
    ¬Covers source (callAfter source j) offset := by
  intro h'
  have hbefore : offset < (placeAfter source j).offset :=
    Nat.lt_of_lt_of_le (covered_between h).2 (placeAfter_offset_le hlt)
  exact absurd (covered_between h').1 (Nat.not_le.mpr hbefore)

theorem le_offset_of_no_eof {n : Nat} (h : ∀ m < n, ¬IsEof (callAfter source m)) :
    n ≤ (placeAfter source n).offset := by
  induction n with
  | zero => exact Nat.zero_le _
  | succ n ih =>
    have hle := ih fun m hlt => h m (Nat.lt_succ_of_lt hlt)
    have hlater := (passesFrom_of_not_isEof (h n (Nat.lt_succ_self n))).later
    omega

theorem exists_isEof (source : List Char) : ∃ n ≤ source.length, IsEof (callAfter source n) := by
  by_contra hnone
  have hnoEof : ∀ m < source.length + 1, ¬IsEof (callAfter source m) := fun m hlt heof =>
    hnone ⟨m, Nat.le_of_lt_succ hlt, heof⟩
  have hle := le_offset_of_no_eof hnoEof
  have hinside := (placeAfter_in source (source.length + 1)).le
  omega

theorem takeWhile_isNamePart_cons {c : Char} (h : isNameStart c = true) (cs : List Char) :
    (c :: cs).takeWhile isNamePart = c :: cs.takeWhile isNamePart := by
  have hpart : [c].all isNamePart = true := all_isNamePart_of_isWord (by simp [isWord, h])
  exact List.takeWhile_cons_of_pos (by simpa using hpart)

/-- Cutting makes progress.  After any calls, failed ones included, the place is in the script, and
the next call gives the `eof` token, as all later ones then do, or leads to a later place.  The
`eof` token comes after at most as many calls as there are characters.  A call covers characters
that it passes, at least one before the end, and so no character is covered by two calls.  A name
passes its first character among its parts. -/
theorem cutting_progresses (source : List Char) :
    (∀ n, (placeAfter source n).offset ≤ source.length) ∧
    (∀ n, IsEof (callAfter source n) → ∀ m, n ≤ m → callAfter source m = callAfter source n) ∧
    (∀ n, ¬IsEof (callAfter source n) →
      (placeAfter source n).offset < (placeAfter source (n + 1)).offset ∧
      ∃ offset, Covers source (callAfter source n) offset) ∧
    (∃ n ≤ source.length, IsEof (callAfter source n) ∧ ∀ m < n, ¬IsEof (callAfter source m)) ∧
    (∀ n offset, Covers source (callAfter source n) offset →
      (placeAfter source n).offset ≤ offset ∧ offset < (placeAfter source (n + 1)).offset) ∧
    (∀ i j offset, i ≠ j → Covers source (callAfter source i) offset →
      ¬Covers source (callAfter source j) offset) ∧
    ∀ c cs, isNameStart c = true →
      (c :: cs).takeWhile isNamePart = c :: cs.takeWhile isNamePart := by
  refine ⟨fun n => (placeAfter_in source n).le, ?_, ?_, ?_, fun n offset => covered_between, ?_,
    fun c cs hstart => takeWhile_isNamePart_cons hstart cs⟩
  · intro n heof m hle
    rw [(callAfter_of_isEof heof hle).1, (callAfter_of_isEof heof (Nat.le_refl n)).1]
  · intro n hnoEof
    have hpasses := passesFrom_of_not_isEof hnoEof
    exact ⟨hpasses.later, hpasses.covers⟩
  · classical
    obtain ⟨n, hle, heof⟩ := exists_isEof source
    have hreached : ∃ n, IsEof (callAfter source n) := ⟨n, heof⟩
    exact ⟨Nat.find hreached, Nat.le_trans (Nat.find_min' hreached heof) hle,
      Nat.find_spec hreached, fun m hlt => Nat.find_min hreached hlt⟩
  · intro i j offset hdifferent hcovered hcovered'
    rcases Nat.lt_or_gt_of_ne hdifferent with hlt | hlt
    · exact not_covers_of_lt hlt hcovered hcovered'
    · exact not_covers_of_lt hlt hcovered' hcovered

/-- A letter, then a character that starts no token, then a quoted text without an end. -/
theorem cutting_progresses_past_faults :
    callAfter "a@'b".toList 1 = .error ⟨.unexpectedCharacter '@', some 1⟩ ∧
      callAfter "a@'b".toList 2 = .error ⟨.unterminatedString, some 2⟩ ∧
      (placeAfter "a@'b".toList 1).offset < (placeAfter "a@'b".toList 2).offset ∧
      ¬Covers "a@'b".toList (callAfter "a@'b".toList 2) 1 ∧
      callAfter "a@'b".toList 7 = callAfter "a@'b".toList 3 := by
  have hrefused : callAfter "a@'b".toList 1 = .error ⟨.unexpectedCharacter '@', some 1⟩ := by rfl
  have hunended : callAfter "a@'b".toList 2 = .error ⟨.unterminatedString, some 2⟩ := by rfl
  have hended : IsEof (callAfter "a@'b".toList 3) := ⟨eofToken "a@'b".toList, by rfl, rfl⟩
  obtain ⟨-, hrepeats, hadvances, -, -, hapart, -⟩ := cutting_progresses "a@'b".toList
  have hnoEof : ¬IsEof (callAfter "a@'b".toList 1) := by
    rw [hrefused]
    rintro ⟨t, hsame, -⟩
    cases hsame
  refine ⟨hrefused, hunended, (hadvances 1 hnoEof).1, hapart 1 2 1 (by decide) ?_, ?_⟩
  · rw [hrefused]
    exact .character
  · exact hrepeats 3 hended 7 (by decide)

end PuzzleLang
