import ByteMachine.Proofs.Assembly.Erasure
import ByteMachine.Proofs.Assembly.OperandText
/-!
# A token is decided by its text and the character after it

A token's kind and length depend only on the characters it takes and the next one
(`extent_eq_of_take`). So blanks and comments are skipped in the significant tokens, and a
prefix scans alike whatever follows it (`significant_append`).
-/

set_option autoImplicit false

namespace ByteMachine

/-! ## Runs of characters -/

section Runs

variable {α : Type} {p : α → Bool}

theorem drop_length_takeWhile (l : List α) : l.drop (l.takeWhile p).length = l.dropWhile p := by
  have whole : l.takeWhile p ++ l.dropWhile p = l := List.takeWhile_append_dropWhile
  calc l.drop (l.takeWhile p).length
      = (l.takeWhile p ++ l.dropWhile p).drop (l.takeWhile p).length := by rw [whole]
    _ = l.dropWhile p := List.drop_left

theorem take_eq_of_take {l l' : List α} {k j : Nat} (window : l'.take k = l.take k)
    (le : j ≤ k) : l'.take j = l.take j := by
  calc l'.take j = (l'.take k).take j := by rw [List.take_take, Nat.min_eq_left le]
    _ = (l.take k).take j := by rw [window]
    _ = l.take j := by rw [List.take_take, Nat.min_eq_left le]

theorem getElem?_eq_of_take {l l' : List α} {k i : Nat} (window : l'.take k = l.take k)
    (lt : i < k) : l'[i]? = l[i]? := by
  have read := congrArg (·[i]?) window
  simpa [List.getElem?_take, lt] using read

theorem head?_eq_of_take {l l' : List α} {k : Nat} (window : l'.take (k + 1) = l.take (k + 1)) :
    l'.head? = l.head? := by
  rcases l with _ | ⟨a, l⟩ <;> rcases l' with _ | ⟨a', l'⟩ <;> simp_all

theorem eq_cons_of_take {l l' : List α} {a : α} {k : Nat}
    (window : l'.take (k + 1) = (a :: l).take (k + 1)) :
    ∃ l'', l' = a :: l'' ∧ l''.take k = l.take k := by
  rcases l' with _ | ⟨a', l''⟩
  · simp at window
  · simp only [List.take_succ_cons, List.cons.injEq] at window
    exact ⟨l'', by rw [window.1], window.2⟩

theorem takeWhile_eq_of_take {l l' : List α}
    (window : l'.take ((l.takeWhile p).length + 1) = l.take ((l.takeWhile p).length + 1)) :
    l'.takeWhile p = l.takeWhile p := by
  induction l generalizing l' with
  | nil =>
    rcases l' with _ | ⟨a', l'⟩
    · rfl
    · simp at window
  | cons a l ih =>
    rcases l' with _ | ⟨a', l'⟩
    · simp at window
    · by_cases taken : p a
      · simp only [List.takeWhile_cons_of_pos taken, List.length_cons, List.take_succ_cons,
          List.cons.injEq] at window
        obtain ⟨rfl, rest⟩ := window
        rw [List.takeWhile_cons_of_pos taken, List.takeWhile_cons_of_pos taken, ih rest]
      · simp only [List.takeWhile_cons_of_neg taken, List.length_nil, List.take_succ_cons,
          List.take_zero, List.cons.injEq] at window
        rw [window.1, List.takeWhile_cons_of_neg taken, List.takeWhile_cons_of_neg taken]

theorem length_takeWhile_left {xs ys : List α}
    (stops : ((xs ++ ys).takeWhile p).length = xs.length) :
    (xs.takeWhile p).length = xs.length := by
  by_contra short
  rw [List.takeWhile_append, if_neg short] at stops
  exact short stops

theorem forall_of_length_takeWhile {xs ys : List α}
    (stops : ((xs ++ ys).takeWhile p).length = xs.length) : ∀ x ∈ xs, p x = true :=
  List.takeWhile_eq_self_iff.mp ((List.takeWhile_prefix p).eq_of_length (length_takeWhile_left stops))

theorem length_takeWhile_append_of_stop {xs ys zs : List α} {b : α}
    (stops : ((xs ++ ys).takeWhile p).length = xs.length) (fails : p b = false) :
    ((xs ++ b :: zs).takeWhile p).length = xs.length := by
  rw [List.takeWhile_append, if_pos (length_takeWhile_left stops),
    List.takeWhile_cons_of_neg (by simp [fails])]
  simp

theorem eq_false_of_length_takeWhile {xs zs : List α} {b : α}
    (stops : ((xs ++ b :: zs).takeWhile p).length = xs.length) : p b = false := by
  by_contra holds
  have whole := length_takeWhile_left stops
  rw [List.takeWhile_append, if_pos whole, List.takeWhile_cons_of_pos (by simpa using holds)] at stops
  simp at stops

theorem length_takeWhile_append_of_lt {xs ys zs : List α}
    (inside : ((xs ++ ys).takeWhile p).length < xs.length) :
    ((xs ++ zs).takeWhile p).length = ((xs ++ ys).takeWhile p).length := by
  have short : (xs.takeWhile p).length ≠ xs.length := by
    intro whole
    rw [List.takeWhile_append, if_pos whole] at inside
    simp at inside
  rw [List.takeWhile_append, if_neg short, List.takeWhile_append, if_neg short]

end Runs

namespace Token

/-! ## Scanning one token -/

theorem scanFrom_cons (first : Char) (rest : List Char) (offset : Nat) :
    scanFrom (first :: rest) offset =
      ⟨(extent first rest).1, String.ofList (first :: rest.take (extent first rest).2),
        ⟨offset, byteLength (first :: rest.take (extent first rest).2)⟩⟩ ::
        scanFrom (rest.drop (extent first rest).2)
          (offset + byteLength (first :: rest.take (extent first rest).2)) := by
  rw [scanFrom]

theorem isLineBlank_of_mem_takeWhile {q : Char → Bool} {l : List Char} {c : Char}
    (taken : c ∈ l.takeWhile q) (space : q ' ' = false) (tab : q '\t' = false)
    (ret : q '\r' = false) : isLineBlank c = false := by
  have holds := List.mem_takeWhile_imp taken
  cases blank : isLineBlank c
  · rfl
  · rcases isLineBlank_cases blank with rfl | rfl | rfl <;> simp_all

theorem nameExtent_eq (rest : List Char) :
    nameExtent rest =
      if rest[(rest.takeWhile isNameChar).length]? = some ':' then
        (.label, (rest.takeWhile isNameChar).length + 1)
      else (.ident, (rest.takeWhile isNameChar).length) := by
  unfold nameExtent
  dsimp only
  rw [← List.head?_drop]
  by_cases colon : (rest.drop (rest.takeWhile isNameChar).length).head? = some ':'
  · obtain ⟨tail, after⟩ := List.head?_eq_some_iff.mp colon
    rw [if_pos colon, after]
    rfl
  · rw [if_neg colon]
    split
    next tail after => simp [after] at colon
    next => rfl

/-! ## How far a token reaches -/

theorem nameExtent_le (rest : List Char) : (nameExtent rest).2 ≤ rest.length := by
  rw [nameExtent_eq]
  split
  next colon => exact (List.getElem?_eq_some_iff.mp colon).1
  next => exact (List.takeWhile_sublist _).length_le

theorem extent_le (first : Char) (rest : List Char) : (extent first rest).2 ≤ rest.length := by
  rcases first_cases first with rfl | rfl | blank | rfl | rfl | rfl | plain
  · rw [extent_semicolon]
    exact (List.takeWhile_sublist _).length_le
  · simp [extent_newline]
  · rw [extent_of_isLineBlank blank]
    exact (List.takeWhile_sublist _).length_le
  · simp [extent_comma]
  · rcases hash_cases rest with ⟨more, rfl⟩ | ⟨more, rfl, unsigned⟩ | notDollar
    · have digits := (List.takeWhile_sublist Char.isDigit (l := more)).length_le
      simp only [extent_signed, List.length_cons]
      omega
    · have digits := (List.takeWhile_sublist Char.isDigit (l := more)).length_le
      simp only [extent_unsigned unsigned, List.length_cons]
      omega
    · simp [extent_hash notDollar]
  · rcases zero_cases rest with ⟨marker, more, rfl, isMarker⟩ | notMarker
    · have digits := (List.takeWhile_sublist Hex.isDigit (l := more)).length_le
      simp only [extent_marker more isMarker, List.length_cons]
      omega
    · rw [extent_zero notMarker]
      exact nameExtent_le rest
  · rw [extent_plain plain]
    split
    · exact nameExtent_le rest
    · simp

/-! ## A token is decided by its text and the character after it -/

theorem nameExtent_eq_of_take {rest rest' : List Char}
    (window : rest'.take ((nameExtent rest).2 + 1) = rest.take ((nameExtent rest).2 + 1)) :
    nameExtent rest' = nameExtent rest := by
  have reach : (rest.takeWhile isNameChar).length + 1 ≤ (nameExtent rest).2 + 1 := by
    rw [nameExtent_eq]
    split <;> simp
  have name : rest'.takeWhile isNameChar = rest.takeWhile isNameChar :=
    takeWhile_eq_of_take (take_eq_of_take window reach)
  have next : rest'[(rest.takeWhile isNameChar).length]? = rest[(rest.takeWhile isNameChar).length]? :=
    getElem?_eq_of_take window (by omega)
  rw [nameExtent_eq, nameExtent_eq rest, name, next]

theorem extent_eq_of_take {first : Char} {rest rest' : List Char}
    (window : rest'.take ((extent first rest).2 + 1) = rest.take ((extent first rest).2 + 1)) :
    extent first rest' = extent first rest := by
  have heads : rest'.head? = rest.head? := head?_eq_of_take window
  rcases first_cases first with rfl | rfl | blank | rfl | rfl | rfl | plain
  · simp only [extent_semicolon] at window ⊢
    rw [takeWhile_eq_of_take window]
  · simp only [extent_newline]
  · simp only [extent_of_isLineBlank blank] at window ⊢
    rw [takeWhile_eq_of_take window]
  · simp only [extent_comma]
  · rcases hash_cases rest with ⟨more, rfl⟩ | ⟨more, rfl, unsigned⟩ | notDollar
    · rw [extent_signed, show 2 + (more.takeWhile Char.isDigit).length + 1 =
        (more.takeWhile Char.isDigit).length + 1 + 1 + 1 by omega] at window
      obtain ⟨signed, rfl, tail⟩ := eq_cons_of_take window
      obtain ⟨more', rfl, digits⟩ := eq_cons_of_take tail
      rw [extent_signed, extent_signed, takeWhile_eq_of_take digits]
    · rw [extent_unsigned unsigned, show 1 + (more.takeWhile Char.isDigit).length + 1 =
        (more.takeWhile Char.isDigit).length + 1 + 1 by omega] at window
      obtain ⟨more', rfl, digits⟩ := eq_cons_of_take window
      have unsigned' : more'.head? ≠ some '-' := by
        rw [head?_eq_of_take digits]
        exact unsigned
      rw [extent_unsigned unsigned, extent_unsigned unsigned', takeWhile_eq_of_take digits]
    · rw [extent_hash notDollar, extent_hash (by rw [heads]; exact notDollar)]
  · rcases zero_cases rest with ⟨marker, more, rfl, isMarker⟩ | notMarker
    · rw [extent_marker more isMarker, show 1 + (more.takeWhile Hex.isDigit).length + 1 =
        (more.takeWhile Hex.isDigit).length + 1 + 1 by omega] at window
      obtain ⟨more', rfl, digits⟩ := eq_cons_of_take window
      rw [extent_marker more isMarker, extent_marker more' isMarker,
        takeWhile_eq_of_take digits]
    · rw [extent_zero notMarker] at window
      rw [extent_zero notMarker, extent_zero (by rw [heads]; exact notMarker),
        nameExtent_eq_of_take window]
  · simp only [extent_plain plain] at window ⊢
    split_ifs at window ⊢
    · exact nameExtent_eq_of_take window
    · rfl

/-! ## A blank stops every token but blanks and comments -/

theorem nameExtent_before_blank {inner after more : List Char} {b : Char} {kind : TokenKind}
    (named : nameExtent (inner ++ after) = (kind, inner.length)) (blank : isLineBlank b = true) :
    nameExtent (inner ++ b :: more) = (kind, inner.length) := by
  obtain ⟨-, -, -, -, -, -, notColon, -, -, notName⟩ := blank_stops blank
  rw [nameExtent_eq] at named ⊢
  split_ifs at named with colon
  · have inside : ((inner ++ after).takeWhile isNameChar).length < inner.length := by
      have := (Prod.mk.inj named).2
      omega
    have colon' : inner[((inner ++ after).takeWhile isNameChar).length]? = some ':' := by
      rwa [List.getElem?_append_left inside] at colon
    rw [length_takeWhile_append_of_lt inside, List.getElem?_append_left inside, if_pos colon']
    exact named
  · have stops : ((inner ++ after).takeWhile isNameChar).length = inner.length :=
      (Prod.mk.inj named).2
    rw [length_takeWhile_append_of_stop stops notName, List.getElem?_append_right (le_refl _)]
    simpa [notColon] using (Prod.mk.inj named).1

theorem run_of_split {q : Char → Bool} {lead inner after digits : List Char}
    (split : inner ++ after = lead ++ digits)
    (counted : lead.length + (digits.takeWhile q).length = inner.length) :
    ∃ run, inner = lead ++ run ∧ ((run ++ after).takeWhile q).length = run.length := by
  rcases List.append_eq_append_iff.mp split with ⟨extra, longer, rfl⟩ | ⟨run, rfl, rfl⟩
  · have short : extra.length + (digits.takeWhile q).length = 0 := by
      rw [longer, List.length_append] at counted
      omega
    obtain ⟨rfl, stop⟩ : extra = [] ∧ (digits.takeWhile q).length = 0 := by
      constructor
      · exact List.eq_nil_of_length_eq_zero (by omega)
      · omega
    exact ⟨[], by simpa using longer.symm, by simpa using stop⟩
  · refine ⟨run, rfl, ?_⟩
    rw [List.length_append] at counted
    omega

theorem extent_before_blank {first b : Char} {inner after more : List Char} {kind : TokenKind}
    (extended : extent first (inner ++ after) = (kind, inner.length))
    (notBlank : kind ≠ .blank) (notComment : kind ≠ .comment) (blank : isLineBlank b = true) :
    extent first (inner ++ b :: more) = (kind, inner.length) := by
  obtain ⟨-, -, notDollar, notMinus, notX, notBigX, -, notDigit, notHex, -⟩ := blank_stops blank
  rcases first_cases first with rfl | rfl | firstBlank | rfl | rfl | rfl | plain
  · rw [extent_semicolon] at extended
    exact absurd (Prod.mk.inj extended).1.symm notComment
  · rw [extent_newline] at extended ⊢
    exact extended
  · rw [extent_of_isLineBlank firstBlank] at extended
    exact absurd (Prod.mk.inj extended).1.symm notBlank
  · rw [extent_comma] at extended ⊢
    exact extended
  · rcases hash_cases (inner ++ after) with ⟨digits, split⟩ | ⟨digits, split, unsigned⟩ |
      notHash
    · rw [split, extent_signed] at extended
      obtain ⟨rfl, counted⟩ := Prod.mk.inj extended
      obtain ⟨run, rfl, stops⟩ :=
        run_of_split (show inner ++ after = ['$', '-'] ++ digits from split) counted
      rw [List.append_assoc, show ['$', '-'] ++ (run ++ b :: more) =
        '$' :: '-' :: (run ++ b :: more) from rfl, extent_signed,
        length_takeWhile_append_of_stop stops notDigit]
      congr 1
      simp only [List.length_append, List.length_cons, List.length_nil]
    · rw [split, extent_unsigned unsigned] at extended
      obtain ⟨rfl, counted⟩ := Prod.mk.inj extended
      obtain ⟨run, rfl, stops⟩ :=
        run_of_split (show inner ++ after = ['$'] ++ digits from split) counted
      have unsigned' : (run ++ b :: more).head? ≠ some '-' := by
        rcases run with _ | ⟨sign, run⟩
        · simpa using notMinus
        · have digitsSplit : digits = sign :: (run ++ after) := by simpa using split.symm
          simpa [digitsSplit] using unsigned
      rw [List.append_assoc, show ['$'] ++ (run ++ b :: more) = '$' :: (run ++ b :: more) from rfl,
        extent_unsigned unsigned', length_takeWhile_append_of_stop stops notDigit]
      congr 1
      simp only [List.length_append, List.length_cons, List.length_nil]
    · rw [extent_hash notHash] at extended
      obtain ⟨rfl, counted⟩ := Prod.mk.inj extended
      rcases inner with _ | ⟨c, inner⟩
      · rw [List.nil_append, extent_hash (by simpa using notDollar)]
        rfl
      · simp at counted
  · rcases zero_cases (inner ++ after) with ⟨marker, digits, split, isMarker⟩ | notMarker
    · rw [split, extent_marker digits isMarker] at extended
      obtain ⟨rfl, counted⟩ := Prod.mk.inj extended
      obtain ⟨run, rfl, stops⟩ :=
        run_of_split (show inner ++ after = [marker] ++ digits from split) counted
      rw [List.append_assoc, show [marker] ++ (run ++ b :: more) = marker :: (run ++ b :: more)
        from rfl, extent_marker _ isMarker, length_takeWhile_append_of_stop stops notHex]
      congr 1
      simp only [List.length_append, List.length_cons, List.length_nil]
    · rw [extent_zero notMarker] at extended
      have notMarker' : (inner ++ b :: more).head? ≠ some 'x' ∧
          (inner ++ b :: more).head? ≠ some 'X' := by
        rcases inner with _ | ⟨c, inner⟩
        · simpa using ⟨notX, notBigX⟩
        · simpa using notMarker
      rw [extent_zero notMarker']
      exact nameExtent_before_blank extended blank
  · rw [extent_plain plain] at extended ⊢
    split_ifs at extended ⊢
    · exact nameExtent_before_blank extended blank
    · exact extended

theorem extent_of_skipped {first : Char} {rest : List Char}
    (skipped : (extent first rest).1 = .blank ∨ (extent first rest).1 = .comment) :
    isLineBlank first = true ∧ extent first rest = (.blank, (rest.takeWhile isLineBlank).length) ∨
      first = ';' ∧ extent first rest = (.comment, (rest.takeWhile (· != '\n')).length) := by
  have shape := kind_cases first rest
  rcases skipped with kind | kind <;>
    simp only [kind, reduceCtorEq, false_and, false_or, or_false, true_and] at shape
  · exact .inl ⟨shape, extent_of_isLineBlank shape⟩
  · subst shape
    exact .inr ⟨rfl, extent_semicolon rest⟩

theorem kind_before_blank {first b : Char} {inner more : List Char} {kind : TokenKind}
    (extended : extent first (inner ++ b :: more) = (kind, inner.length))
    (blank : isLineBlank b = true) : kind ≠ .blank ∧ kind ≠ .comment := by
  by_contra skipped
  have skipped' : (extent first (inner ++ b :: more)).1 = .blank ∨
      (extent first (inner ++ b :: more)).1 = .comment := by
    rw [extended]
    tauto
  rcases extent_of_skipped skipped' with ⟨-, run⟩ | ⟨-, run⟩
  · rw [run] at extended
    have stops := eq_false_of_length_takeWhile (Prod.mk.inj extended).2
    rw [blank] at stops
    cases stops
  · rw [run] at extended
    have stops := eq_false_of_length_takeWhile (Prod.mk.inj extended).2
    rcases isLineBlank_cases blank with rfl | rfl | rfl <;> simp at stops

theorem nameExtent_text (rest : List Char) :
    ∀ c ∈ rest.take (nameExtent rest).2, isLineBlank c = false := by
  intro c within
  rcases take_nameExtent rest with ⟨-, taken⟩ | ⟨-, taken⟩
  · rw [taken, List.mem_append, List.mem_singleton] at within
    rcases within with name | rfl
    · exact isLineBlank_of_mem_takeWhile name (by decide) (by decide) (by decide)
    · decide
  · rw [taken] at within
    exact isLineBlank_of_mem_takeWhile within (by decide) (by decide) (by decide)

theorem blank_or_comment_of_mem {first c : Char} {rest : List Char}
    (within : c ∈ first :: rest.take (extent first rest).2) (blank : isLineBlank c = true) :
    (extent first rest).1 = .blank ∨ (extent first rest).1 = .comment := by
  by_contra kept
  have clean : ∀ c ∈ first :: rest.take (extent first rest).2, isLineBlank c = false := by
    rcases first_cases first with rfl | rfl | firstBlank | rfl | rfl | rfl | plain
    · simp [extent_semicolon] at kept
    · simp [extent_newline, isLineBlank]
    · simp [extent_of_isLineBlank firstBlank] at kept
    · simp [extent_comma, isLineBlank]
    · rcases hash_cases rest with ⟨more, rfl⟩ | ⟨more, rfl, unsigned⟩ | notDollar
      · rw [extent_signed, show 2 + (more.takeWhile Char.isDigit).length =
          (more.takeWhile Char.isDigit).length + 1 + 1 by omega, List.take_succ_cons,
          List.take_succ_cons, take_length_takeWhile]
        simp only [List.forall_mem_cons]
        exact ⟨by decide, by decide, by decide, fun c digit =>
          isLineBlank_of_mem_takeWhile digit (by decide) (by decide) (by decide)⟩
      · rw [extent_unsigned unsigned, show 1 + (more.takeWhile Char.isDigit).length =
          (more.takeWhile Char.isDigit).length + 1 by omega, List.take_succ_cons,
          take_length_takeWhile]
        simp only [List.forall_mem_cons]
        exact ⟨by decide, by decide, fun c digit =>
          isLineBlank_of_mem_takeWhile digit (by decide) (by decide) (by decide)⟩
      · simp [extent_hash notDollar, isLineBlank]
    · rcases zero_cases rest with ⟨marker, more, rfl, isMarker⟩ | notMarker
      · rw [extent_marker more isMarker, show 1 + (more.takeWhile Hex.isDigit).length =
          (more.takeWhile Hex.isDigit).length + 1 by omega, List.take_succ_cons,
          take_length_takeWhile]
        simp only [List.forall_mem_cons]
        refine ⟨by decide, by rcases isMarker with rfl | rfl <;> decide, fun c digit =>
          isLineBlank_of_mem_takeWhile digit (by decide) (by decide) (by decide)⟩
      · rw [extent_zero notMarker, List.forall_mem_cons]
        exact ⟨by decide, nameExtent_text rest⟩
    · rw [extent_plain plain, List.forall_mem_cons]
      refine ⟨plain.2.2.1, ?_⟩
      split
      · exact nameExtent_text rest
      · simp
  rw [clean c within] at blank
  cases blank

/-! ## Text that starts alike -/

/-- What follows a token in two texts, alike enough for the token to end at the same place in
both: the same next character or the end of both, or a blank in both. -/
def SameLookahead (after after' : List Char) : Prop :=
  after'.head? = after.head? ∨
    ∃ b b' more more', after = b :: more ∧ after' = b' :: more' ∧ isLineBlank b = true ∧
      isLineBlank b' = true

theorem extent_append_of_lookahead {first : Char} {inner after after' : List Char}
    {kind : TokenKind} {count : Nat}
    (extended : extent first (inner ++ after) = (kind, count)) (within : count ≤ inner.length)
    (ahead : SameLookahead after after') : extent first (inner ++ after') = (kind, count) := by
  rcases Nat.lt_or_eq_of_le within with inside | rfl
  · rw [← extended]
    apply extent_eq_of_take
    rw [extended, List.take_append_of_le_length inside, List.take_append_of_le_length inside]
  · rcases ahead with heads | ⟨b, b', more, more', rfl, rfl, blank, blank'⟩
    · rw [← extended]
      apply extent_eq_of_take
      rw [extended, List.take_length_add_append, List.take_length_add_append, List.take_one,
        List.take_one, heads]
    · obtain ⟨notBlank, notComment⟩ := kind_before_blank extended blank
      exact extent_before_blank extended notBlank notComment blank'

/-! ## What the assembler reads of a text -/

/-- The tokens of a text that the assembler reads, blanks and comments left out, with their
places in the text forgotten. -/
def significant (chars : List Char) : List Token :=
  ((scanFrom chars 0).filter isSignificant).map eraseSpan

theorem filter_map_eraseSpan (tokens : List Token) :
    (tokens.filter isSignificant).map eraseSpan = (tokens.map eraseSpan).filter isSignificant := by
  rw [List.filter_map]
  rfl

theorem map_eraseSpan_scanFrom (chars : List Char) (offset offset' : Nat) :
    (scanFrom chars offset).map eraseSpan = (scanFrom chars offset').map eraseSpan := by
  fun_induction scanFrom chars offset generalizing offset' with
  | case1 => rw [scanFrom]
  | case2 offset first rest kind count extended text size =>
    rename_i ih
    rw [scanFrom_cons, extended, List.map_cons, List.map_cons, ih]
    rfl

theorem significant_scanFrom (chars : List Char) (offset : Nat) :
    ((scanFrom chars offset).filter isSignificant).map eraseSpan = significant chars := by
  rw [significant, filter_map_eraseSpan, filter_map_eraseSpan, map_eraseSpan_scanFrom _ offset 0]

@[simp] theorem significant_nil : significant [] = [] := by
  simp [significant, scanFrom]

theorem significant_cons {first : Char} {rest : List Char} {kind : TokenKind} {count : Nat}
    (extended : extent first rest = (kind, count)) :
    significant (first :: rest) =
      ([⟨kind, String.ofList (first :: rest.take count), ⟨0, 0⟩⟩] : List Token).filter
        isSignificant ++ significant (rest.drop count) := by
  rw [← significant_scanFrom _ 0, scanFrom_cons, extended]
  simp only [List.filter_cons, List.filter_nil, isSignificant]
  by_cases kept : (kind != .blank && kind != .comment) = true <;>
    simp [kept, significant_scanFrom, eraseSpan]

theorem significant_skip {first : Char} {rest : List Char} {kind : TokenKind} {count : Nat}
    (extended : extent first rest = (kind, count)) (skipped : kind = .blank ∨ kind = .comment) :
    significant (first :: rest) = significant (rest.drop count) := by
  rw [significant_cons extended]
  rcases skipped with rfl | rfl <;> rfl

theorem significant_dropWhile (chars : List Char) :
    significant (chars.dropWhile isLineBlank) = significant chars := by
  rcases chars with _ | ⟨first, rest⟩
  · rfl
  · by_cases blank : isLineBlank first = true
    · rw [List.dropWhile_cons_of_pos blank,
        significant_skip (extent_of_isLineBlank blank) (.inl rfl), drop_length_takeWhile]
    · rw [List.dropWhile_cons_of_neg blank]

theorem significant_blank_append {run : List Char} (blank : ∀ c ∈ run, isLineBlank c = true)
    (chars : List Char) : significant (run ++ chars) = significant chars := by
  rw [← significant_dropWhile, List.dropWhile_append_of_pos blank, significant_dropWhile]

theorem significant_comment {note : List Char} (sameLine : '\n' ∉ note) (chars : List Char) :
    significant (';' :: note ++ chars) = significant (chars.dropWhile (· != '\n')) := by
  have inNote : ∀ c ∈ note, (c != '\n') = true := by
    intro c within
    have different : c ≠ '\n' := fun feed => sameLine (feed ▸ within)
    simpa using different
  rw [List.cons_append, significant_skip (extent_semicolon _) (.inr rfl), drop_length_takeWhile,
    List.dropWhile_append_of_pos inNote]

theorem significant_append {front back : List Token} {before after after' : List Char}
    {offset : Nat} (scanned : scanFrom (before ++ after) offset = front ++ back)
    (covered : chars front = before) (ahead : SameLookahead after after') :
    significant (before ++ after') =
      (front.filter isSignificant).map eraseSpan ++ significant after' := by
  induction front generalizing before offset with
  | nil =>
    rw [← covered]
    simp
  | cons token front ih =>
    obtain ⟨first, rest, split⟩ : ∃ first rest, before ++ after = first :: rest := by
      rcases joined : before ++ after with _ | ⟨first, rest⟩
      · rw [joined, scanFrom] at scanned
        cases scanned
      · exact ⟨first, rest, rfl⟩
    obtain ⟨kind, count, extended⟩ : ∃ kind count, extent first rest = (kind, count) :=
      ⟨_, _, rfl⟩
    rw [split, scanFrom_cons, extended, List.cons_append, List.cons.injEq] at scanned
    obtain ⟨rfl, later⟩ := scanned
    simp only [chars_cons, String.toList_ofList, List.cons_append] at covered
    subst covered
    have taken : (rest.take count).length = count := by
      have := extent_le first rest
      rw [extended] at this
      exact List.length_take_of_le this
    have restSplit : rest = rest.take count ++ (chars front ++ after) := by
      simpa using split.symm
    have extended' : extent first (rest.take count ++ (chars front ++ after')) = (kind, count) := by
      rw [← List.append_assoc]
      refine extent_append_of_lookahead ?_ (by simp [taken]) ahead
      rw [List.append_assoc, ← restSplit]
      exact extended
    have dropped : rest.drop count = chars front ++ after := by
      nth_rewrite 1 [restSplit]
      exact List.drop_left' taken
    have following := ih (show scanFrom (chars front ++ after) _ = front ++ back by
      rw [← dropped]
      exact later) rfl
    rw [List.cons_append, List.append_assoc, significant_cons extended', List.take_left' taken,
      List.drop_left' taken, following]
    simp only [List.filter_cons, List.filter_nil, isSignificant]
    by_cases kept : (kind != .blank && kind != .comment) = true <;> simp [kept, eraseSpan]

end Token

end ByteMachine
