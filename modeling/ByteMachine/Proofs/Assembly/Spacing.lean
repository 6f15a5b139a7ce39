import ByteMachine.Proofs.Assembly.Lookahead
/-!
# Layout does not change what is assembled

Changing a run of blanks, putting blanks between tokens or rewriting a comment keeps the
significant tokens (`significant_of_relaid`), so the same program or error comes out
(`assemble_ignores_layout`).
-/

set_option autoImplicit false

namespace ByteMachine

/-! ## Where a scan stands -/

namespace Token

theorem chars_scanFrom (input : List Char) (offset : Nat) : chars (scanFrom input offset) = input := by
  rw [chars, List.flatMap_def]
  exact join_text_scanFrom input offset

theorem scanFrom_suffix {input : List Char} {offset : Nat} {front back : List Token}
    (scanned : scanFrom input offset = front ++ back) :
    ∃ offset', back = scanFrom (chars back) offset' := by
  induction front generalizing input offset with
  | nil =>
    refine ⟨offset, ?_⟩
    rw [← List.nil_append back, ← scanned, chars_scanFrom]
  | cons token front ih =>
    rcases input with _ | ⟨first, rest⟩
    · rw [scanFrom] at scanned
      cases scanned
    · rw [scanFrom_cons, List.cons_append, List.cons.injEq] at scanned
      exact ih scanned.2

theorem extent_of_scanFrom {input : List Char} {offset : Nat} {front back : List Token}
    {token : Token} (scanned : scanFrom input offset = front ++ token :: back) :
    ∃ first inner, token.text.toList = first :: inner ∧
      extent first (inner ++ chars back) = (token.kind, inner.length) := by
  obtain ⟨offset', suffix⟩ := scanFrom_suffix scanned
  rcases joined : chars (token :: back) with _ | ⟨first, rest⟩
  · rw [joined, scanFrom] at suffix
    cases suffix
  · rw [joined, scanFrom_cons, List.cons.injEq] at suffix
    obtain ⟨rfl, -⟩ := suffix
    have restSplit : rest.take (extent first rest).2 ++ chars back = rest := by
      simpa using joined
    refine ⟨first, rest.take (extent first rest).2, by simp, ?_⟩
    rw [restSplit, List.length_take_of_le (extent_le first rest)]

theorem blank_text_of_scanFrom {input : List Char} {offset : Nat} {front back : List Token}
    {token : Token} (scanned : scanFrom input offset = front ++ token :: back)
    (isBlank : token.kind = .blank) :
    token.text.toList ≠ [] ∧ ∀ c ∈ token.text.toList, isLineBlank c = true := by
  obtain ⟨first, inner, text, extended⟩ := extent_of_scanFrom scanned
  rcases extent_of_skipped (by rw [extended]; exact .inl isBlank) with ⟨blank, run⟩ | ⟨-, run⟩
  · rw [run, isBlank] at extended
    rw [text]
    exact ⟨List.cons_ne_nil _ _, List.forall_mem_cons.mpr
      ⟨blank, forall_of_length_takeWhile (Prod.mk.inj extended).2⟩⟩
  · rw [run, isBlank] at extended
    cases extended

theorem comment_text_of_scanFrom {input : List Char} {offset : Nat} {front back : List Token}
    {token : Token} (scanned : scanFrom input offset = front ++ token :: back)
    (isComment : token.kind = .comment) :
    ∃ note, token.text.toList = ';' :: note ∧ '\n' ∉ note := by
  obtain ⟨first, inner, text, extended⟩ := extent_of_scanFrom scanned
  rcases extent_of_skipped (by rw [extended]; exact .inr isComment) with ⟨-, run⟩ | ⟨rfl, run⟩
  · rw [run, isComment] at extended
    cases extended
  · rw [run, isComment] at extended
    refine ⟨inner, text, fun feed => ?_⟩
    have stops := forall_of_length_takeWhile (Prod.mk.inj extended).2 '\n' feed
    simp at stops

theorem newline_not_mem_of_blank {run : List Char} (blank : ∀ c ∈ run, isLineBlank c = true) :
    '\n' ∉ run := fun feed => by simpa [isLineBlank] using blank '\n' feed

theorem skipped_of_mem_text {input : List Char} {offset : Nat} {front back : List Token}
    {token : Token} {c : Char} (scanned : scanFrom input offset = front ++ token :: back)
    (within : c ∈ token.text.toList) (blank : isLineBlank c = true) :
    token.kind = .blank ∨ token.kind = .comment := by
  obtain ⟨first, inner, tokenText, extended⟩ := extent_of_scanFrom scanned
  have taken : c ∈ first :: (inner ++ chars back).take (extent first (inner ++ chars back)).2 := by
    rw [extended, List.take_left' rfl, ← tokenText]
    exact within
  have kinds := blank_or_comment_of_mem taken blank
  rwa [extended] at kinds

theorem not_blank_after_skipped {input : List Char} {offset : Nat} {front back : List Token}
    {token : Token} {w : Char} {more : List Char}
    (scanned : scanFrom input offset = front ++ token :: back)
    (skipped : token.kind = .blank ∨ token.kind = .comment) (following : chars back = w :: more) :
    isLineBlank w = false := by
  obtain ⟨first, inner, -, extended⟩ := extent_of_scanFrom scanned
  rw [following] at extended
  cases blankW : isLineBlank w
  · rfl
  · obtain ⟨notBlank, notComment⟩ := kind_before_blank extended blankW
    exact absurd skipped (by simp [notBlank, notComment])

theorem exists_of_chars_eq {tokens : List Token} {before after : List Char} {c : Char}
    (split : chars tokens = before ++ c :: after) :
    ∃ front token back pre post, tokens = front ++ token :: back ∧
      token.text.toList = pre ++ c :: post ∧ before = chars front ++ pre ∧
      after = post ++ chars back := by
  induction tokens generalizing before with
  | nil => simp at split
  | cons token tokens ih =>
    rw [chars_cons, List.append_eq_append_iff] at split
    rcases split with ⟨middle, rfl, later⟩ | ⟨inside, text, rest⟩
    · obtain ⟨front, found, back, pre, post, rfl, foundText, rfl, rfl⟩ := ih later
      exact ⟨token :: front, found, back, pre, post, rfl, foundText, by simp, rfl⟩
    · rcases inside with _ | ⟨c', post⟩
      · obtain ⟨front, found, back, pre, post, rfl, foundText, split, rfl⟩ :=
          ih (show chars tokens = [] ++ c :: after by simpa using rest.symm)
        exact ⟨token :: front, found, back, pre, post, rfl, foundText,
          by simpa [text] using split, rfl⟩
      · simp only [List.cons_append, List.cons.injEq] at rest
        obtain ⟨rfl, rfl⟩ := rest
        exact ⟨[], token, tokens, before, post, rfl, text, by simp, rfl⟩

/-! ## Changes that keep the significant tokens -/

theorem significant_swap {input : List Char} {offset : Nat} {front back : List Token}
    {token : Token} {text : List Char} (scanned : scanFrom input offset = front ++ token :: back)
    (ahead : SameLookahead (token.text.toList ++ chars back) (text ++ chars back))
    (same : significant (text ++ chars back) = significant (token.text.toList ++ chars back)) :
    significant (chars front ++ text ++ chars back) = significant input := by
  have whole : input = chars front ++ (token.text.toList ++ chars back) := by
    rw [← chars_scanFrom input offset, scanned]
    simp
  rw [whole] at scanned ⊢
  rw [List.append_assoc, significant_append scanned rfl ahead,
    significant_append scanned rfl (.inl rfl), same]

theorem significant_token_blank_append {input : List Char} {offset : Nat}
    {front back : List Token} {token : Token} {run : List Char}
    (scanned : scanFrom input offset = front ++ token :: back) (nonempty : run ≠ [])
    (blank : ∀ c ∈ run, isLineBlank c = true) :
    significant (token.text.toList ++ run ++ chars back) =
      significant (token.text.toList ++ chars back) := by
  by_cases skipped : token.kind = .blank ∨ token.kind = .comment
  · rcases skipped with isBlank | isComment
    · have tokenBlank := (blank_text_of_scanFrom scanned isBlank).2
      rw [List.append_assoc, significant_blank_append tokenBlank,
        significant_blank_append tokenBlank, significant_blank_append blank]
    · obtain ⟨note, noteText, sameLine⟩ := comment_text_of_scanFrom scanned isComment
      have sameLine' : '\n' ∉ note ++ run := by
        rw [List.mem_append, not_or]
        exact ⟨sameLine, newline_not_mem_of_blank blank⟩
      rw [noteText, show ';' :: note ++ run = ';' :: (note ++ run) from rfl,
        significant_comment sameLine', significant_comment sameLine]
  · obtain ⟨notBlank, notComment⟩ : token.kind ≠ .blank ∧ token.kind ≠ .comment := by
      simpa [not_or] using skipped
    obtain ⟨first, inner, text, extended⟩ := extent_of_scanFrom scanned
    obtain ⟨b, more, rfl⟩ := List.exists_cons_of_ne_nil nonempty
    have extended' : extent first (inner ++ b :: (more ++ chars back)) =
        (token.kind, inner.length) :=
      extent_before_blank extended notBlank notComment (blank b (List.mem_cons_self ..))
    have following : significant (b :: (more ++ chars back)) = significant (chars back) :=
      significant_blank_append blank (chars back)
    rw [text]
    simp only [List.cons_append, List.append_assoc]
    rw [significant_cons extended', significant_cons extended, List.take_left' rfl,
      List.take_left' rfl, List.drop_left' rfl, List.drop_left' rfl, following]

theorem significant_swap_blank {input : List Char} {offset : Nat} {front back : List Token}
    {token : Token} {text : List Char} (scanned : scanFrom input offset = front ++ token :: back)
    (isBlank : token.kind = .blank) (nonempty : text ≠ [])
    (blank : ∀ c ∈ text, isLineBlank c = true) :
    significant (chars front ++ text ++ chars back) = significant input := by
  obtain ⟨tokenNonempty, tokenBlank⟩ := blank_text_of_scanFrom scanned isBlank
  refine significant_swap scanned ?_ ?_
  · obtain ⟨t, ts, tokenText⟩ := List.exists_cons_of_ne_nil tokenNonempty
    obtain ⟨c, cs, rfl⟩ := List.exists_cons_of_ne_nil nonempty
    have blankT : isLineBlank t = true := tokenBlank t (by rw [tokenText]; exact List.mem_cons_self ..)
    exact .inr ⟨t, c, ts ++ chars back, cs ++ chars back, by rw [tokenText]; rfl, rfl, blankT,
      blank c (List.mem_cons_self ..)⟩
  · rw [significant_blank_append blank, significant_blank_append tokenBlank]

theorem significant_swap_comment {input : List Char} {offset : Nat} {front back : List Token}
    {token : Token} {note : List Char} (scanned : scanFrom input offset = front ++ token :: back)
    (isComment : token.kind = .comment) (sameLine : '\n' ∉ note) :
    significant (chars front ++ ';' :: note ++ chars back) = significant input := by
  obtain ⟨note', tokenText, sameLine'⟩ := comment_text_of_scanFrom scanned isComment
  refine significant_swap scanned (.inl (by rw [tokenText]; rfl)) ?_
  rw [tokenText, significant_comment sameLine, significant_comment sameLine']

theorem significant_insert {input : List Char} {offset : Nat} {front back : List Token}
    {run : List Char} (scanned : scanFrom input offset = front ++ back) (nonempty : run ≠ [])
    (blank : ∀ c ∈ run, isLineBlank c = true) :
    significant (chars front ++ run ++ chars back) = significant input := by
  rcases List.eq_nil_or_concat front with rfl | ⟨front, token, rfl⟩
  · have whole : input = chars back := by
      rw [← chars_scanFrom input offset, scanned, List.nil_append]
    rw [whole, chars_nil, List.nil_append, significant_blank_append blank]
  · rw [List.concat_eq_append, List.append_assoc, List.singleton_append] at scanned
    obtain ⟨first, inner, tokenText, -⟩ := extent_of_scanFrom scanned
    have ahead : SameLookahead (token.text.toList ++ chars back)
        (token.text.toList ++ run ++ chars back) := .inl (by rw [tokenText]; rfl)
    have swapped := significant_swap scanned ahead
      (significant_token_blank_append scanned nonempty blank)
    simpa [List.concat_eq_append] using swapped

theorem significant_replace_blanks {input before run run' after : List Char}
    (split : input = before ++ run ++ after) (nonempty : run ≠ []) (nonempty' : run' ≠ [])
    (blank : ∀ c ∈ run, isLineBlank c = true) (blank' : ∀ c ∈ run', isLineBlank c = true) :
    significant (before ++ run' ++ after) = significant input := by
  obtain ⟨b, rest, rfl⟩ := List.exists_cons_of_ne_nil nonempty
  have blankB : isLineBlank b = true := blank b (List.mem_cons_self ..)
  obtain ⟨front, token, back, pre, post, scanned, tokenText, rfl, following⟩ :=
    exists_of_chars_eq (show chars (scanFrom input 0) = before ++ b :: (rest ++ after) by
      rw [chars_scanFrom, split]
      simp)
  have skipped := skipped_of_mem_text scanned (by simp [tokenText]) blankB
  obtain ⟨tail, rfl, rfl⟩ : ∃ tail, post = rest ++ tail ∧ after = tail ++ chars back := by
    rcases List.append_eq_append_iff.mp following with ⟨tail, inside, rfl⟩ |
      ⟨beyond, longer, backSplit⟩
    · exact ⟨tail, inside, rfl⟩
    · rcases beyond with _ | ⟨w, beyond⟩
      · exact ⟨[], by simpa using longer.symm, by simpa using backSplit.symm⟩
      · have blankW : isLineBlank w = true := blank w (by simp [longer])
        rw [not_blank_after_skipped scanned skipped (backSplit.trans List.cons_append)] at blankW
        cases blankW
  rcases skipped with isBlank | isComment
  · have tokenBlank := (blank_text_of_scanFrom scanned isBlank).2
    rw [tokenText] at tokenBlank
    have swapped := significant_swap_blank scanned isBlank
      (show pre ++ run' ++ tail ≠ [] by simp [nonempty'])
      (by
        intro c within
        simp only [List.mem_append] at within
        rcases within with (inPre | inRun) | inTail
        · exact tokenBlank c (by simp [inPre])
        · exact blank' c inRun
        · exact tokenBlank c (by simp [inTail]))
    simpa using swapped
  · obtain ⟨note, noteText, sameLine⟩ := comment_text_of_scanFrom scanned isComment
    rcases pre with _ | ⟨semicolon, pre⟩
    · rw [noteText] at tokenText
      simp only [List.nil_append, List.cons.injEq] at tokenText
      rw [← tokenText.1] at blankB
      cases blankB
    · rw [noteText, List.cons_append, List.cons.injEq] at tokenText
      obtain ⟨rfl, rfl⟩ := tokenText
      have sameLine' : '\n' ∉ pre ++ run' ++ tail := by
        simp only [List.mem_append, not_or]
        exact ⟨⟨fun feed => sameLine (by simp [feed]), newline_not_mem_of_blank blank'⟩,
          fun feed => sameLine (by simp [feed])⟩
      have swapped := significant_swap_comment scanned isComment sameLine'
      simpa using swapped

end Token

/-! ## Changes of layout -/

/-- One change to the layout of a source: a run of blanks changed for another, a run of blanks
put where one token ends and the next begins, or the text of a comment after its `;` changed
for other text on its line. -/
inductive Relaid : String → String → Prop where
  | blanks {source source' : String} (before run run' after : List Char)
      (split : source.toList = before ++ run ++ after)
      (split' : source'.toList = before ++ run' ++ after) (nonempty : run ≠ [])
      (nonempty' : run' ≠ []) (blank : ∀ c ∈ run, Token.isLineBlank c = true)
      (blank' : ∀ c ∈ run', Token.isLineBlank c = true) : Relaid source source'
  | spaced {source source' : String} (front back : List Token) (run : List Char)
      (split : Token.scan source = front ++ back)
      (split' : source'.toList = Token.chars front ++ run ++ Token.chars back)
      (nonempty : run ≠ []) (blank : ∀ c ∈ run, Token.isLineBlank c = true) :
      Relaid source source'
  | noted {source source' : String} (front back : List Token) (comment : Token) (note : List Char)
      (split : Token.scan source = front ++ comment :: back) (isComment : comment.kind = .comment)
      (split' : source'.toList = Token.chars front ++ ';' :: note ++ Token.chars back)
      (sameLine : '\n' ∉ note) : Relaid source source'

theorem Relaid.significant_eq {source source' : String} (relaid : Relaid source source') :
    Token.significant source'.toList = Token.significant source.toList := by
  cases relaid with
  | blanks before run run' after split split' nonempty nonempty' blank blank' =>
    rw [split']
    exact Token.significant_replace_blanks split nonempty nonempty' blank blank'
  | spaced front back run split split' nonempty blank =>
    rw [split']
    exact Token.significant_insert split nonempty blank
  | noted front back comment note split isComment split' sameLine =>
    rw [split']
    exact Token.significant_swap_comment split isComment sameLine

theorem significant_of_relaid {source source' : String}
    (relaid : Relation.ReflTransGen Relaid source source') :
    Token.significant source'.toList = Token.significant source.toList := by
  induction relaid with
  | refl => rfl
  | tail _ step previous => rw [step.significant_eq, previous]

theorem splitOnP_map {α β : Type} (f : α → β) (p : β → Bool) (l : List α) :
    (l.map f).splitOnP p = (l.splitOnP (p ∘ f)).map (·.map f) := by
  induction l with
  | nil => simp
  | cons x rest ih =>
    obtain ⟨first, others, split⟩ := List.exists_cons_of_ne_nil (List.splitOnP_ne_nil (p ∘ f) rest)
    rw [List.map_cons, List.splitOnP_cons_eq_if_modifyHead, List.splitOnP_cons_eq_if_modifyHead, ih]
    by_cases separator : p (f x) = true
    · simp [separator]
    · simp [separator, split]

theorem map_eraseSpan_sourceLines (source : String) :
    (Listing.sourceLines source).map (·.map Token.eraseSpan) =
      (Token.significant source.toList).splitOnP (·.kind == .newline) := by
  rw [Listing.sourceLines, Token.significant, splitOnP_map]
  rfl

theorem mapError_assemble_of_relaid {source source' : String}
    (relaid : Relation.ReflTransGen Relaid source source') :
    (assemble source').mapError AsmError.eraseSpan = (assemble source).mapError AsmError.eraseSpan := by
  rw [mapError_assemble, mapError_assemble, map_eraseSpan_sourceLines, map_eraseSpan_sourceLines,
    significant_of_relaid relaid]

/-- Changing how a source is laid out, its runs of blanks, the blanks between its tokens and the
text of its comments, changes nothing that is assembled from it: the same program, or the same
error in all but its span. -/
theorem assemble_ignores_layout {source source' : String}
    (relaid : Relation.ReflTransGen Relaid source source') :
    (∀ program, assemble source = .ok program → assemble source' = .ok program) ∧
      ∀ error, assemble source = .error error →
        ∃ error', assemble source' = .error error' ∧ error'.eraseSpan = error.eraseSpan := by
  have same := mapError_assemble_of_relaid relaid
  refine ⟨fun program assembled => ?_, fun error failed => ?_⟩
  · rw [assembled, mapError_ok] at same
    cases assembled' : assemble source' with
    | ok program' =>
      rw [assembled', mapError_ok] at same
      rw [same]
    | error error' =>
      rw [assembled', mapError_error] at same
      cases same
  · rw [failed, mapError_error] at same
    cases assembled' : assemble source' with
    | ok program' =>
      rw [assembled', mapError_ok] at same
      cases same
    | error error' =>
      rw [assembled', mapError_error] at same
      exact ⟨error', rfl, Except.error.inj same⟩

theorem assemble_ignores_layout_of_tabs :
    Relation.ReflTransGen Relaid "start: halt" "start:\t\thalt" ∧
      (∀ program, assemble "start: halt" = .ok program →
          assemble "start:\t\thalt" = .ok program) ∧
        ∀ error, assemble "start: halt" = .error error →
          ∃ error', assemble "start:\t\thalt" = .error error' ∧
            error'.eraseSpan = error.eraseSpan := by
  have relaid : Relation.ReflTransGen Relaid "start: halt" "start:\t\thalt" :=
    .single (.blanks "start:".toList [' '] ['\t', '\t'] "halt".toList (by decide +kernel)
      (by decide +kernel) (by simp) (by simp) (by simp [Token.isLineBlank])
      (by simp [Token.isLineBlank]))
  exact ⟨relaid, assemble_ignores_layout relaid⟩

end ByteMachine
