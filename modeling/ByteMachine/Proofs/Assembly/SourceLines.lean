import Mathlib.Tactic.Tauto
import Mathlib.Data.List.TakeWhile
import ByteMachine.Assembly.Listing
/-!
# Source lines and the tokens on them

The rules of the scanner, stated once (`kind_cases`), and the lines the first pass reads: each
token of a line lies after as many line feeds as its line number less one
(`lineTokens_sourceLines`).
-/

set_option autoImplicit false

namespace ByteMachine

/-- A span lies on line `line` of a source: it covers whole characters of the source, none of
them a line feed, and `line - 1` line feeds stand before it. -/
def Span.OnLine (source : String) (line : Nat) (span : Span) : Prop :=
  ∃ before inside after, source.toList = before ++ inside ++ after ∧
    byteLength before = span.offset ∧ byteLength inside = span.length ∧ '\n' ∉ inside ∧
    line = before.count '\n' + 1

/-! ## Splitting a list at separators -/

section Split

variable {α : Type} {p : α → Bool}

theorem take_length_takeWhile (l : List α) : l.take (l.takeWhile p).length = l.takeWhile p := by
  have whole : l.takeWhile p ++ l.dropWhile p = l := List.takeWhile_append_dropWhile
  calc l.take (l.takeWhile p).length
      = (l.takeWhile p ++ l.dropWhile p).take (l.takeWhile p).length := by rw [whole]
    _ = l.takeWhile p := List.take_left

theorem splitOnP_filter {q : α → Bool} (kept : ∀ x, p x = true → q x = true) (l : List α) :
    (l.filter q).splitOnP p = (l.splitOnP p).map (·.filter q) := by
  induction l with
  | nil => simp
  | cons x rest ih =>
    obtain ⟨first, others, split⟩ := List.exists_cons_of_ne_nil (List.splitOnP_ne_nil p rest)
    rw [List.splitOnP_cons_eq_if_modifyHead]
    by_cases separator : p x = true
    · simp [kept x separator, separator, List.splitOnP_cons_eq_if_modifyHead, ih]
    · by_cases keep : q x = true
      · simp [keep, separator, List.splitOnP_cons_eq_if_modifyHead, ih, split]
      · simp [keep, separator, ih, split]

theorem exists_of_splitOnP {l piece : List α} {index : Nat}
    (found : (l.splitOnP p)[index]? = some piece) :
    ∃ before after, l = before ++ piece ++ after ∧ (∀ x ∈ piece, p x = false) ∧
      before.countP p = index ∧ (∀ x ∈ before.getLast?, p x = true) ∧
      ∀ x ∈ after.head?, p x = true := by
  induction l generalizing index piece with
  | nil =>
    rw [List.splitOnP_nil] at found
    cases index with
    | zero =>
      cases found
      exact ⟨[], [], rfl, by simp, rfl, by simp, by simp⟩
    | succ index => simp at found
  | cons x rest ih =>
    rw [List.splitOnP_cons_eq_if_modifyHead] at found
    by_cases separator : p x = true
    · rw [if_pos separator] at found
      cases index with
      | zero =>
        cases found
        exact ⟨[], x :: rest, rfl, by simp, rfl, by simp, by simp [separator]⟩
      | succ index =>
        obtain ⟨before, after, rfl, inside, counted, last, next⟩ := ih found
        refine ⟨x :: before, after, rfl, inside, by simp [separator, counted], ?_, next⟩
        cases before with
        | nil => simpa using separator
        | cons y ys => simpa [List.getLast?_cons] using last
    · rw [if_neg separator] at found
      obtain ⟨first, others, split⟩ := List.exists_cons_of_ne_nil (List.splitOnP_ne_nil p rest)
      rw [split, List.modifyHead_cons] at found
      cases index with
      | zero =>
        cases found
        obtain ⟨before, after, whole, inside, counted, last, next⟩ :=
          ih (show (rest.splitOnP p)[0]? = some first by rw [split]; rfl)
        have empty : before = [] := by
          rcases List.eq_nil_or_concat before with empty | ⟨front, final, rfl⟩
          · exact empty
          · have : p final = true := last final (by simp)
            simp [List.countP_append, this] at counted
        subst empty
        refine ⟨[], after, by simp [whole], ?_, rfl, by simp, next⟩
        intro y within
        rcases List.mem_cons.mp within with rfl | later
        · simpa using separator
        · exact inside y later
      | succ index =>
        obtain ⟨before, after, rfl, inside, counted, last, next⟩ :=
          ih (show (rest.splitOnP p)[index + 1]? = some piece by rw [split]; exact found)
        refine ⟨x :: before, after, rfl, inside, by simp [separator, counted], ?_, next⟩
        cases before with
        | nil => simp at counted
        | cons y ys => simpa [List.getLast?_cons] using last

theorem exists_append_of_filter {l kept : List α} (filtered : l.filter p = kept) :
    ∃ front tail, l = front ++ tail ∧ front.getLast? = kept.getLast? ∧
      ∀ x ∈ tail, p x = false := by
  rcases List.eq_nil_or_concat kept with rfl | ⟨others, last, rfl⟩
  · exact ⟨[], l, rfl, rfl, fun x within => by simpa using List.filter_eq_nil_iff.mp filtered x within⟩
  · rw [List.concat_eq_append] at filtered
    obtain ⟨front, back, rfl, -, backKept⟩ := List.filter_eq_append_iff.mp filtered
    obtain ⟨skipped, tail, rfl, -, -, tailKept⟩ := List.filter_eq_cons_iff.mp backKept
    refine ⟨front ++ skipped ++ [last], tail, by simp, by simp, fun x within => ?_⟩
    simpa using List.filter_eq_nil_iff.mp tailKept x within

end Split

/-! ## What one token takes -/

namespace Token

/-! ## The rules of the scanner -/

theorem isLineBlank_cases {c : Char} (blank : isLineBlank c = true) :
    c = ' ' ∨ c = '\t' ∨ c = '\r' := by
  simpa [isLineBlank, or_assoc] using blank

theorem blank_stops {b : Char} (blank : isLineBlank b = true) :
    b ≠ ';' ∧ b ≠ '\n' ∧ b ≠ '$' ∧ b ≠ '-' ∧ b ≠ 'x' ∧ b ≠ 'X' ∧ b ≠ ':' ∧ b.isDigit = false ∧
      Hex.isDigit b = false ∧ isNameChar b = false := by
  rcases isLineBlank_cases blank with rfl | rfl | rfl <;> decide

theorem first_cases (first : Char) :
    first = ';' ∨ first = '\n' ∨ isLineBlank first = true ∨ first = ',' ∨ first = '#' ∨
      first = '0' ∨
      (first ≠ ';' ∧ first ≠ '\n' ∧ isLineBlank first = false ∧ first ≠ ',' ∧ first ≠ '#' ∧
        first ≠ '0') := by
  cases isLineBlank first <;> tauto

theorem hash_cases (rest : List Char) :
    (∃ more, rest = '$' :: '-' :: more) ∨ (∃ more, rest = '$' :: more ∧ more.head? ≠ some '-') ∨
      rest.head? ≠ some '$' := by
  rcases rest with _ | ⟨dollar, more⟩
  · simp
  · by_cases isDollar : dollar = '$'
    · subst isDollar
      rcases more with _ | ⟨sign, more⟩
      · exact .inr (.inl ⟨[], rfl, by simp⟩)
      · by_cases minus : sign = '-'
        · exact .inl ⟨more, by rw [minus]⟩
        · exact .inr (.inl ⟨sign :: more, rfl, by simpa using minus⟩)
    · exact .inr (.inr (by simpa using isDollar))

theorem zero_cases (rest : List Char) :
    (∃ marker more, rest = marker :: more ∧ (marker = 'x' ∨ marker = 'X')) ∨
      (rest.head? ≠ some 'x' ∧ rest.head? ≠ some 'X') := by
  rcases rest with _ | ⟨marker, more⟩
  · simp
  · by_cases isMarker : marker = 'x' ∨ marker = 'X'
    · exact .inl ⟨marker, more, rfl, isMarker⟩
    · exact .inr (by simpa [not_or] using isMarker)

section Rules

variable {first : Char} {rest : List Char}

attribute [local simp] extent

theorem extent_semicolon (rest : List Char) :
    extent ';' rest = (.comment, (rest.takeWhile (· != '\n')).length) := by
  simp

theorem extent_newline (rest : List Char) : extent '\n' rest = (.newline, 0) := by
  simp

theorem extent_of_isLineBlank (blank : isLineBlank first = true) :
    extent first rest = (.blank, (rest.takeWhile isLineBlank).length) := by
  obtain ⟨notSemicolon, notFeed, -⟩ := blank_stops blank
  simp [notSemicolon, notFeed, blank]

theorem extent_comma (rest : List Char) : extent ',' rest = (.comma, 0) := by
  simp [isLineBlank]

theorem extent_signed (more : List Char) :
    extent '#' ('$' :: '-' :: more) = (.immediate, 2 + (more.takeWhile Char.isDigit).length) := by
  simp [isLineBlank]

theorem extent_unsigned {more : List Char} (unsigned : more.head? ≠ some '-') :
    extent '#' ('$' :: more) = (.immediate, 1 + (more.takeWhile Char.isDigit).length) := by
  rcases more with _ | ⟨sign, more⟩
  · simp [isLineBlank]
  · have notMinus : sign ≠ '-' := by simpa using unsigned
    simp [isLineBlank, notMinus]

theorem extent_hash (notDollar : rest.head? ≠ some '$') : extent '#' rest = (.unknown, 0) := by
  rcases rest with _ | ⟨dollar, more⟩
  · simp [isLineBlank]
  · have notDollar : dollar ≠ '$' := by simpa using notDollar
    simp [isLineBlank, notDollar]

theorem extent_marker {marker : Char} (more : List Char) (isMarker : marker = 'x' ∨ marker = 'X') :
    extent '0' (marker :: more) = (.memory, 1 + (more.takeWhile Hex.isDigit).length) := by
  simp [isLineBlank, isMarker]

theorem extent_zero (notMarker : rest.head? ≠ some 'x' ∧ rest.head? ≠ some 'X') :
    extent '0' rest = nameExtent rest := by
  rcases rest with _ | ⟨marker, more⟩
  · simp [isLineBlank]
  · have notMarker : ¬(marker = 'x' ∨ marker = 'X') := by simpa using notMarker
    simp [isLineBlank, notMarker]

theorem extent_plain
    (plain : first ≠ ';' ∧ first ≠ '\n' ∧ isLineBlank first = false ∧ first ≠ ',' ∧
      first ≠ '#' ∧ first ≠ '0') :
    extent first rest =
      if isNameStart first = true ∨ first.isDigit = true then nameExtent rest
      else (.unknown, 0) := by
  obtain ⟨semicolon, feed, blank, comma, hash, zero⟩ := plain
  unfold extent
  rw [if_neg semicolon, if_neg feed, if_neg (by simp [blank]), if_neg comma, if_neg hash,
    if_neg zero]

end Rules

theorem newline_not_mem_take_takeWhile {p : Char → Bool} (stops : p '\n' = false)
    (rest : List Char) : '\n' ∉ rest.take (rest.takeWhile p).length := by
  rw [take_length_takeWhile]
  intro within
  have := List.mem_takeWhile_imp within
  rw [stops] at this
  contradiction

theorem take_nameExtent (rest : List Char) :
    (nameExtent rest).1 = .label ∧
        rest.take (nameExtent rest).2 = rest.takeWhile isNameChar ++ [':'] ∨
      (nameExtent rest).1 = .ident ∧ rest.take (nameExtent rest).2 = rest.takeWhile isNameChar := by
  unfold nameExtent
  dsimp only
  split
  · rename_i more colon
    refine .inl ⟨rfl, ?_⟩
    rw [List.take_add, take_length_takeWhile, colon]
    rfl
  · exact .inr ⟨rfl, take_length_takeWhile rest⟩

theorem nameExtent_kind (rest : List Char) :
    (nameExtent rest).1 = .label ∨ (nameExtent rest).1 = .ident := by
  rcases take_nameExtent rest with ⟨label, -⟩ | ⟨ident, -⟩
  · exact .inl label
  · exact .inr ident

theorem kind_cases (first : Char) (rest : List Char) :
    (extent first rest).1 = .comment ∧ first = ';' ∨
      (extent first rest).1 = .newline ∧ first = '\n' ∨
      (extent first rest).1 = .blank ∧ isLineBlank first = true ∨
      (extent first rest).1 = .comma ∧ first = ',' ∨
      (extent first rest).1 = .immediate ∧ first = '#' ∧ (∃ more, rest = '$' :: more) ∨
      (extent first rest).1 = .memory ∧ first = '0' ∧
        (∃ marker more, rest = marker :: more ∧ (marker = 'x' ∨ marker = 'X')) ∨
      ((extent first rest).1 = .label ∨ (extent first rest).1 = .ident) ∨
      (extent first rest).1 = .unknown := by
  rcases first_cases first with rfl | rfl | blank | rfl | rfl | rfl | plain
  · simp [extent_semicolon]
  · simp [extent_newline]
  · simp [extent_of_isLineBlank blank, blank]
  · simp [extent_comma]
  · rcases hash_cases rest with ⟨more, rfl⟩ | ⟨more, rfl, unsigned⟩ | notDollar
    · simp [extent_signed]
    · simp [extent_unsigned unsigned]
    · simp [extent_hash notDollar]
  · rcases zero_cases rest with ⟨marker, more, rfl, isMarker⟩ | notMarker
    · simp [extent_marker more isMarker, isMarker]
    · rw [extent_zero notMarker]
      rcases nameExtent_kind rest with kind | kind <;> simp [kind]
  · rw [extent_plain plain]
    split
    · rcases nameExtent_kind rest with kind | kind <;> simp [kind]
    · simp

/-- What the characters a token takes must satisfy: only a line feed starts a line-feed token,
no character taken after the first is a line feed, and a label ends in its colon. -/
def Takes (first : Char) (rest : List Char) (taken : TokenKind × Nat) : Prop :=
  (taken.1 = .newline ↔ first = '\n') ∧ '\n' ∉ rest.take taken.2 ∧
    (taken.1 = .label → ∃ name, rest.take taken.2 = name ++ [':'])

theorem takes_of_not_mem {first : Char} {rest : List Char} {kind : TokenKind} {count : Nat}
    (feed : first ≠ '\n') (notNewline : kind ≠ .newline) (notLabel : kind ≠ .label)
    (clean : '\n' ∉ rest.take count) : Takes first rest (kind, count) :=
  ⟨⟨fun newline => absurd newline notNewline, fun isFeed => absurd isFeed feed⟩, clean,
    fun label => absurd label notLabel⟩

theorem takes_nameExtent {first : Char} (feed : first ≠ '\n') (rest : List Char) :
    Takes first rest (nameExtent rest) := by
  have nameChars : '\n' ∉ rest.takeWhile isNameChar := fun within =>
    absurd (List.mem_takeWhile_imp within) (by decide)
  rcases take_nameExtent rest with ⟨label, taken⟩ | ⟨ident, taken⟩
  · refine ⟨⟨fun newline => ?_, fun isFeed => absurd isFeed feed⟩, ?_, fun _ => ⟨_, taken⟩⟩
    · rw [label] at newline
      cases newline
    · rw [taken]
      simpa using nameChars
  · refine ⟨⟨fun newline => ?_, fun isFeed => absurd isFeed feed⟩, ?_, fun label => ?_⟩
    · rw [ident] at newline
      cases newline
    · rwa [taken]
    · rw [ident] at label
      cases label

theorem extent_takes (first : Char) (rest : List Char) : Takes first rest (extent first rest) := by
  rcases first_cases first with rfl | rfl | blank | rfl | rfl | rfl | plain
  · rw [extent_semicolon]
    exact takes_of_not_mem (by decide) (by decide) (by decide) (newline_not_mem_take_takeWhile (by decide) rest)
  · rw [extent_newline]
    exact ⟨⟨fun _ => rfl, fun _ => rfl⟩, by simp, fun label => by cases label⟩
  · rw [extent_of_isLineBlank blank]
    exact takes_of_not_mem (blank_stops blank).2.1 (by decide) (by decide)
      (newline_not_mem_take_takeWhile (by decide) rest)
  · rw [extent_comma]
    exact takes_of_not_mem (by decide) (by decide) (by decide) (by simp)
  · rcases hash_cases rest with ⟨more, rfl⟩ | ⟨more, rfl, unsigned⟩ | notDollar
    · rw [extent_signed]
      refine takes_of_not_mem (by decide) (by decide) (by decide) ?_
      rw [Nat.add_comm, List.take_succ_cons, List.take_succ_cons]
      simpa using newline_not_mem_take_takeWhile (p := Char.isDigit) (by decide) more
    · rw [extent_unsigned unsigned]
      refine takes_of_not_mem (by decide) (by decide) (by decide) ?_
      rw [Nat.add_comm, List.take_succ_cons]
      simpa using newline_not_mem_take_takeWhile (p := Char.isDigit) (by decide) more
    · rw [extent_hash notDollar]
      exact takes_of_not_mem (by decide) (by decide) (by decide) (by simp)
  · rcases zero_cases rest with ⟨marker, more, rfl, isMarker⟩ | notMarker
    · rw [extent_marker more isMarker]
      refine takes_of_not_mem (by decide) (by decide) (by decide) ?_
      rw [Nat.add_comm, List.take_succ_cons]
      have notFeed : marker ≠ '\n' := by rcases isMarker with rfl | rfl <;> decide
      simpa [notFeed.symm] using newline_not_mem_take_takeWhile (p := Hex.isDigit) (by decide) more
    · rw [extent_zero notMarker]
      exact takes_nameExtent (by decide) rest
  · rw [extent_plain plain]
    split
    · exact takes_nameExtent plain.2.1 rest
    · exact takes_of_not_mem plain.2.1 (by decide) (by decide) (by simp)

/-! ## The tokens of a scan -/

/-- The characters of a run of tokens. -/
def chars (tokens : List Token) : List Char := tokens.flatMap (·.text.toList)

@[simp] theorem chars_nil : chars [] = [] := rfl

@[simp] theorem chars_cons (token : Token) (tokens : List Token) :
    chars (token :: tokens) = token.text.toList ++ chars tokens := List.flatMap_cons

@[simp] theorem chars_append (first second : List Token) :
    chars (first ++ second) = chars first ++ chars second := List.flatMap_append

theorem chars_scan (source : String) : chars (scan source) = source.toList := by
  rw [chars, List.flatMap_def]
  exact join_text_scan source

/-- What every token of a scan satisfies: its text holds a line feed exactly when it is a
line-feed token, and then just one, and a label's text is its name and a colon. -/
structure Sound (token : Token) : Prop where
  newlines : token.text.toList.count '\n' = if token.kind = .newline then 1 else 0
  label : token.kind = .label → ∃ name, token.text.toList = name ++ [':']

theorem sound_of_takes {first : Char} {rest : List Char} {taken : TokenKind × Nat}
    (takes : Takes first rest taken) (span : Span) :
    Sound ⟨taken.1, String.ofList (first :: rest.take taken.2), span⟩ where
  newlines := by
    obtain ⟨newline, clean, -⟩ := takes
    simp only [String.toList_ofList, List.count_cons, List.count_eq_zero.mpr clean]
    by_cases feed : first = '\n' <;> simp [feed, newline]
  label labelled := by
    obtain ⟨name, taken⟩ := takes.2.2 labelled
    exact ⟨first :: name, by simp [taken]⟩

theorem sound_of_mem_scanFrom {input : List Char} {offset : Nat} {token : Token}
    (scanned : token ∈ scanFrom input offset) : token.Sound := by
  fun_induction scanFrom input offset with
  | case1 => cases scanned
  | case2 offset first rest kind count extended text size ih =>
    rcases List.mem_cons.mp scanned with rfl | later
    · have sound := sound_of_takes (extent_takes first rest) ⟨offset, size⟩
      rwa [extended] at sound
    · exact ih later

theorem span_of_scanFrom {input : List Char} {offset : Nat} {before after : List Token}
    {token : Token} (scanned : scanFrom input offset = before ++ token :: after) :
    token.span = ⟨offset + byteLength (chars before), byteLength token.text.toList⟩ := by
  fun_induction scanFrom input offset generalizing before with
  | case1 => simp at scanned
  | case2 offset first rest kind count extended text size =>
    rename_i ih
    cases before with
    | nil =>
      cases scanned
      simp [size, byteLength]
    | cons head before =>
      obtain ⟨rfl, later⟩ := List.cons_eq_cons.mp scanned
      rw [ih later]
      simp [size, byteLength_append]
      omega

theorem count_newline_chars {tokens : List Token} (sound : ∀ token ∈ tokens, token.Sound) :
    (chars tokens).count '\n' = tokens.countP (·.kind == .newline) := by
  induction tokens with
  | nil => rfl
  | cons token rest ih =>
    rw [chars_cons, List.count_append, (sound token (by simp)).newlines,
      ih fun other within => sound other (by simp [within]), List.countP_cons]
    by_cases newline : token.kind = .newline <;> simp [newline, Nat.add_comm]

theorem newline_not_mem_text {token : Token} (sound : token.Sound)
    (notFeed : token.kind ≠ .newline) : '\n' ∉ token.text.toList := by
  rw [← List.count_eq_zero, sound.newlines, if_neg notFeed]

theorem newline_not_mem_chars {tokens : List Token} (sound : ∀ token ∈ tokens, token.Sound)
    (notFeed : ∀ token ∈ tokens, token.kind ≠ .newline) : '\n' ∉ chars tokens := by
  rw [← List.count_eq_zero, count_newline_chars sound, List.countP_eq_zero]
  intro token within
  simpa using notFeed token within

theorem sound_of_mem_scan {source : String} {token : Token} (scanned : token ∈ scan source) :
    token.Sound :=
  sound_of_mem_scanFrom scanned

theorem span_of_scan {source : String} {before after : List Token} {token : Token}
    (scanned : scan source = before ++ token :: after) :
    token.span = ⟨byteLength (chars before), byteLength token.text.toList⟩ := by
  simpa using span_of_scanFrom scanned

theorem cover_of_scan {source : String} {before between after : List Token} {first last : Token}
    (scanned : scan source = before ++ first :: (between ++ last :: after)) :
    first.span.cover last.span =
      ⟨byteLength (chars before), byteLength (chars (first :: between ++ [last]))⟩ := by
  have firstAt := span_of_scan scanned
  have lastAt := span_of_scan
    (show scan source = (before ++ first :: between) ++ last :: after by rw [scanned]; simp)
  simp only [Span.cover, Span.stop, firstAt, lastAt, chars_append, chars_cons, chars_nil,
    byteLength_append, List.cons_append, List.append_nil, Span.mk.injEq]
  constructor <;> omega

theorem onLine_of_scan {source : String} {before rest : List Token} {inside more : List Char}
    (scanned : scan source = before ++ rest) (starts : chars rest = inside ++ more)
    (clean : '\n' ∉ inside) :
    Span.OnLine source (before.countP (·.kind == .newline) + 1)
      ⟨byteLength (chars before), byteLength inside⟩ := by
  refine ⟨chars before, inside, more, ?_, rfl, rfl, clean, ?_⟩
  · rw [← chars_scan, scanned, chars_append, starts, List.append_assoc]
  · have sound : ∀ token ∈ before, token.Sound := fun token within =>
      sound_of_mem_scan (by rw [scanned]; exact List.mem_append_left _ within)
    rw [count_newline_chars sound]

theorem onLine_of_run {source : String} {before run after : List Token}
    (scanned : scan source = before ++ (run ++ after))
    (notFeed : ∀ token ∈ run, token.kind ≠ .newline) :
    Span.OnLine source (before.countP (·.kind == .newline) + 1)
      ⟨byteLength (chars before), byteLength (chars run)⟩ := by
  have sound : ∀ token ∈ run, token.Sound := fun token within =>
    sound_of_mem_scan (by rw [scanned]; exact List.mem_append_right _ (List.mem_append_left _ within))
  exact onLine_of_scan scanned (chars_append _ _) (newline_not_mem_chars sound notFeed)

end Token

/-! ## The tokens of a line -/

/-- The significant tokens of line `line` of a source: what a run of its tokens keeps once
blanks and comments are left out, where the run holds no line feed, follows `line - 1` of them,
and ends at the next one or at the end. -/
def LineTokens (source : String) (line : Nat) (tokens : List Token) : Prop :=
  ∃ before run after, Token.scan source = before ++ run ++ after ∧
    (∀ token ∈ run, token.kind ≠ .newline) ∧ before.countP (·.kind == .newline) + 1 = line ∧
    (∀ token ∈ after.head?, token.kind = .newline) ∧ run.filter Token.isSignificant = tokens

theorem lineTokens_sourceLines {source : String} {index : Nat} {tokens : List Token}
    (found : (Listing.sourceLines source)[index]? = some tokens) :
    LineTokens source (index + 1) tokens := by
  have significant : ∀ token : Token,
      (token.kind == .newline) = true → token.isSignificant = true := by
    intro token newline
    simp only [beq_iff_eq] at newline
    simp [Token.isSignificant, newline]
  rw [Listing.sourceLines, splitOnP_filter significant, List.getElem?_map] at found
  obtain ⟨piece, pieceFound, rfl⟩ := Option.map_eq_some_iff.mp found
  obtain ⟨before, after, whole, inside, counted, -, next⟩ := exists_of_splitOnP pieceFound
  refine ⟨before, piece, after, whole, fun token within => ?_, by rw [counted], fun token first => ?_,
    rfl⟩
  · simpa using inside token within
  · simpa using next token first

namespace LineTokens

variable {source : String} {line : Nat}

theorem takeWhile_not_newline {tail after : List Token}
    (notFeed : ∀ token ∈ tail, token.kind ≠ .newline)
    (ends : ∀ token ∈ after.head?, token.kind = .newline) :
    (tail ++ after).takeWhile (·.kind != .newline) = tail := by
  rw [List.takeWhile_append_of_pos fun token within => by simpa using notFeed token within]
  cases after with
  | nil => simp
  | cons next rest => simp [ends next rfl]

theorem exists_run {earlier rest : List Token} {token : Token}
    (lined : LineTokens source line (earlier ++ token :: rest)) :
    ∃ before middle after, Token.scan source = before ++ token :: middle ++ after ∧
      (∀ other ∈ token :: middle, other.kind ≠ .newline) ∧
      before.countP (·.kind == .newline) + 1 = line ∧
      (∀ other ∈ after.head?, other.kind = .newline) ∧
      middle.filter Token.isSignificant = rest := by
  obtain ⟨before, run, after, whole, notFeed, counted, ends, kept⟩ := lined
  obtain ⟨front, back, rfl, -, backKept⟩ := List.filter_eq_append_iff.mp kept
  obtain ⟨skipped, middle, rfl, -, -, middleKept⟩ := List.filter_eq_cons_iff.mp backKept
  have inRun : ∀ other ∈ front ++ skipped, other ∈ front ++ (skipped ++ token :: middle) := by
    intro other within
    rcases List.mem_append.mp within with inFront | inSkipped
    · exact List.mem_append_left _ inFront
    · exact List.mem_append_right _ (List.mem_append_left _ inSkipped)
  refine ⟨before ++ front ++ skipped, middle, after, by simp [whole], fun other within => ?_,
    ?_, ends, middleKept⟩
  · exact notFeed other (List.mem_append_right _ (List.mem_append_right _ within))
  · have clean : (front ++ skipped).countP (·.kind == .newline) = 0 :=
      List.countP_eq_zero.mpr fun other within => by simpa using notFeed other (inRun other within)
    rw [List.append_assoc, List.countP_append, clean]
    exact counted

theorem onLine_token {tokens : List Token} {token : Token} (lined : LineTokens source line tokens)
    (within : token ∈ tokens) : token.span.OnLine source line := by
  obtain ⟨earlier, rest, rfl⟩ := List.append_of_mem within
  obtain ⟨before, middle, after, scanned, notFeed, counted, -, -⟩ := lined.exists_run
  have scannedHere : Token.scan source = before ++ token :: (middle ++ after) := by simp [scanned]
  rw [Token.span_of_scan scannedHere, ← counted]
  have sound : token.Sound := Token.sound_of_mem_scan (by rw [scannedHere]; simp)
  exact Token.onLine_of_scan scannedHere (Token.chars_cons _ _)
    (Token.newline_not_mem_text sound (notFeed token (by simp)))

theorem onLine_cover {earlier rest : List Token} {first last : Token}
    (lined : LineTokens source line (earlier ++ first :: rest)) (within : last ∈ rest) :
    (first.span.cover last.span).OnLine source line := by
  obtain ⟨before, middle, after, scanned, notFeed, counted, -, kept⟩ := lined.exists_run
  rw [← kept] at within
  obtain ⟨between, beyond, rfl⟩ := List.append_of_mem (List.mem_filter.mp within).1
  have scannedHere : Token.scan source = before ++ first :: (between ++ last :: (beyond ++ after)) :=
    by simp [scanned]
  rw [Token.cover_of_scan scannedHere, ← counted]
  have scannedRun :
      Token.scan source = before ++ (first :: between ++ [last] ++ (beyond ++ after)) := by
    simp [scanned]
  exact Token.onLine_of_run scannedRun fun token inside => notFeed token (by grind)

theorem label {tokens : List Token} {token : Token} (lined : LineTokens source line tokens)
    (within : token ∈ tokens) (labelled : token.kind = .label) :
    ∃ before after, source.toList = before ++ token.text.toList.dropLast ++ ':' :: after ∧
      byteLength before = token.span.offset ∧
      byteLength token.text.toList.dropLast = token.span.length - 1 ∧
      (⟨token.span.offset, token.span.length - 1⟩ : Span).OnLine source line := by
  obtain ⟨earlier, rest, rfl⟩ := List.append_of_mem within
  obtain ⟨before, middle, after, scanned, notFeed, counted, -, -⟩ := lined.exists_run
  have scannedHere : Token.scan source = before ++ token :: (middle ++ after) := by simp [scanned]
  have sound : token.Sound := Token.sound_of_mem_scan (by rw [scannedHere]; simp)
  obtain ⟨name, named⟩ := sound.label labelled
  have clean : '\n' ∉ name := fun inName =>
    Token.newline_not_mem_text sound (notFeed token (by simp))
      (by rw [named]; exact List.mem_append_left _ inName)
  have placed := Token.span_of_scan scannedHere
  have nameLength : byteLength name = token.span.length - 1 := by
    rw [placed, named, byteLength_append]
    rfl
  have starts : Token.chars (token :: (middle ++ after)) =
      name ++ ':' :: Token.chars (middle ++ after) := by
    simp [named]
  rw [named, List.dropLast_concat]
  refine ⟨Token.chars before, Token.chars (middle ++ after), ?_, by rw [placed], nameLength, ?_⟩
  · rw [← Token.chars_scan, scannedHere, Token.chars_append, starts, List.append_assoc]
  · have nameSpan : (⟨token.span.offset, token.span.length - 1⟩ : Span) =
        ⟨byteLength (Token.chars before), byteLength name⟩ := by
      rw [nameLength, placed]
    rw [nameSpan, ← counted]
    exact Token.onLine_of_scan scannedHere starts clean

theorem through {earlier rest : List Token} {first : Token}
    (lined : LineTokens source line (earlier ++ first :: rest)) :
    ∃ before middle after, Token.scan source = before ++ first :: middle ++ after ∧
      middle.getLast? = rest.getLast? ∧
      (∀ token ∈ after.takeWhile (·.kind != .newline), token.isSignificant = false) ∧
      first.span.cover (rest.getLast?.getD first).span =
        ⟨first.span.offset, byteLength (Token.chars (first :: middle))⟩ ∧
      (⟨first.span.offset, byteLength (Token.chars (first :: middle))⟩ : Span).OnLine source line := by
  obtain ⟨before, middle, after, scanned, notFeed, counted, ends, kept⟩ := lined.exists_run
  obtain ⟨run, tail, rfl, lastOf, blank⟩ := exists_append_of_filter kept
  have scannedRun : Token.scan source = before ++ (first :: run ++ (tail ++ after)) := by
    simp [scanned]
  have firstAt := Token.span_of_scan (show Token.scan source = before ++ first :: (run ++ (tail ++ after))
    by simp [scanned])
  have tailClean : ∀ token ∈ tail, token.kind ≠ .newline := fun token within =>
    notFeed token (by simp [within])
  refine ⟨before, run, tail ++ after, by simp [scanned], lastOf, ?_, ?_, ?_⟩
  · rw [takeWhile_not_newline tailClean ends]
    exact blank
  · rw [← lastOf]
    rcases List.eq_nil_or_concat run with rfl | ⟨between, last, rfl⟩
    · simp [Span.cover, Span.stop, firstAt]
    · rw [List.concat_eq_append] at scannedRun ⊢
      rw [List.getLast?_concat, Option.getD_some, Token.cover_of_scan (by simpa using scannedRun),
        firstAt]
      simp
  · rw [firstAt, ← counted]
    exact Token.onLine_of_run scannedRun fun token inside => notFeed token (by grind)

end LineTokens

end ByteMachine
