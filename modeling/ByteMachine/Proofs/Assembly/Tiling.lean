import ByteMachine.Proofs.Assembly.Spacing
/-!
# The tokens of a source tile it

Each span cuts its token's text out of the source between characters, the spans follow one
another from byte 0 to the end, and line-feed tokens stand exactly at the source's line feeds
(`scan_tiles_source`).
-/

set_option autoImplicit false

namespace ByteMachine

/-! ## Bytes of characters -/

theorem byteLength_eq_utf8Len (chars : List Char) : byteLength chars = String.utf8Len chars := by
  induction chars with
  | nil => rfl
  | cons c rest ih =>
    simp only [byteLength, List.foldr_cons, String.utf8Len_cons] at ih ⊢
    omega

theorem byteLength_pos {chars : List Char} (nonempty : chars ≠ []) : 0 < byteLength chars := by
  obtain ⟨c, rest, rfl⟩ := List.exists_cons_of_ne_nil nonempty
  have := Char.utf8Size_pos c
  simp only [byteLength, List.foldr_cons]
  omega

theorem isValid_of_toList_eq {source : String} {front back : List Char}
    (split : source.toList = front ++ back) : String.Pos.Raw.IsValid source ⟨byteLength front⟩ := by
  refine String.Pos.Raw.isValid_iff_exists_append.mpr
    ⟨String.ofList front, String.ofList back, ?_, ?_⟩
  · rw [← String.ofList_append, ← split, String.ofList_toList]
  · rw [String.rawEndPos_ofList, byteLength_eq_utf8Len]

/-! ## What a cut is in bytes -/

namespace Span.Cuts

variable {span : Span} {source : String} {part : List Char}

theorem isValid_offset (cuts : span.Cuts source.toList part) :
    String.Pos.Raw.IsValid source ⟨span.offset⟩ := by
  obtain ⟨before, after, split, offset, -⟩ := cuts
  rw [← offset]
  exact isValid_of_toList_eq (by rw [split, List.append_assoc])

theorem isValid_stop (cuts : span.Cuts source.toList part) :
    String.Pos.Raw.IsValid source ⟨span.stop⟩ := by
  obtain ⟨before, after, split, offset, length⟩ := cuts
  have stop : span.stop = byteLength (before ++ part) := by
    rw [byteLength_append, offset, length]
    rfl
  rw [stop]
  exact isValid_of_toList_eq split

theorem extract (cuts : span.Cuts source.toList part) :
    String.Pos.Raw.extract source ⟨span.offset⟩ ⟨span.stop⟩ = String.ofList part := by
  obtain ⟨before, after, split, offset, length⟩ := cuts
  have whole : source = String.ofList (before ++ part ++ after) := by
    rw [← split, String.ofList_toList]
  rw [whole, Span.stop, ← offset, ← length, byteLength_eq_utf8Len, byteLength_eq_utf8Len]
  exact String.extract_of_valid before part after

theorem length_pos (cuts : span.Cuts source.toList part) (nonempty : part ≠ []) :
    0 < span.length := by
  obtain ⟨-, -, -, -, length⟩ := cuts
  rw [← length]
  exact byteLength_pos nonempty

end Span.Cuts

namespace Token

/-! ## One token -/

theorem text_ne_nil_of_mem_scanFrom {input : List Char} {offset : Nat} {token : Token}
    (scanned : token ∈ scanFrom input offset) : token.text.toList ≠ [] := by
  obtain ⟨first, rest, -, text⟩ := exists_extent_of_mem_scanFrom scanned
  rw [text]
  exact List.cons_ne_nil _ _

theorem text_of_newline {input : List Char} {offset : Nat} {token : Token}
    (scanned : token ∈ scanFrom input offset) (newline : token.kind = .newline) :
    token.text = "\n" := by
  obtain ⟨first, rest, kind, text⟩ := exists_extent_of_mem_scanFrom scanned
  have feed : first = '\n' := (extent_takes first rest).1.mp (by rw [← kind, newline])
  subst feed
  rw [extent_newline] at text
  exact String.toList_inj.mp text

theorem Sound.newline_mem_iff {token : Token} (sound : token.Sound) :
    '\n' ∈ token.text.toList ↔ token.kind = .newline := by
  rw [← List.count_pos_iff, sound.newlines]
  split <;> simp_all

/-! ## The spans of a scan -/

theorem length_le_length_chars {tokens : List Token}
    (nonempty : ∀ token ∈ tokens, token.text.toList ≠ []) : tokens.length ≤ (chars tokens).length := by
  induction tokens with
  | nil => simp
  | cons token rest ih =>
    have first := List.length_pos_of_ne_nil (nonempty token List.mem_cons_self)
    have later := ih fun other within => nonempty other (List.mem_cons_of_mem _ within)
    simp only [List.length_cons, chars_cons, List.length_append]
    omega

theorem length_scan_le (source : String) : (scan source).length ≤ source.length :=
  calc (scan source).length
      ≤ (chars (scan source)).length :=
        length_le_length_chars fun _ scanned => text_ne_nil_of_mem_scanFrom scanned
    _ = source.length := by rw [chars_scan, String.length_toList]

theorem offsets_scanFrom (input : List Char) (offset : Nat) :
    (scanFrom input offset).map (·.span.offset) ++ [offset + byteLength input] =
      offset :: (scanFrom input offset).map (·.span.stop) := by
  fun_induction scanFrom input offset with
  | case1 offset => rfl
  | case2 offset first rest kind count extended text size ih =>
    have whole : offset + byteLength (first :: rest) = offset + size + byteLength (rest.drop count) := by
      have split : first :: rest = text ++ rest.drop count := by simp [text]
      rw [split, byteLength_append, Nat.add_assoc]
    rw [List.map_cons, List.map_cons, List.cons_append, whole, ih]
    rfl

theorem offsets_scan (source : String) :
    (scan source).map (·.span.offset) ++ [source.utf8ByteSize] =
      0 :: (scan source).map (·.span.stop) := by
  have tiled := offsets_scanFrom source.toList 0
  rwa [Nat.zero_add, byteLength_eq_utf8Len, ← String.utf8ByteSize_ofList,
    String.ofList_toList] at tiled

example : (scan "é;\x00\n").map (·.span) = [⟨0, 2⟩, ⟨2, 2⟩, ⟨4, 1⟩] := by decide +kernel

theorem extract_of_mem_scan {source : String} {token : Token} (scanned : token ∈ scan source) :
    String.Pos.Raw.extract source ⟨token.span.offset⟩ ⟨token.span.stop⟩ = token.text := by
  rw [(cuts_of_mem_scan scanned).extract, String.ofList_toList]

theorem join_extract_scan (source : String) :
    String.join ((scan source).map fun token =>
      String.Pos.Raw.extract source ⟨token.span.offset⟩ ⟨token.span.stop⟩) = source := by
  rw [List.map_congr_left fun _ scanned => extract_of_mem_scan scanned, ← String.toList_inj,
    String.toList_join, List.flatMap_map, ← chars_scan]
  rfl

/-! ## Line feeds -/

theorem newline_token_iff (source : String) (offset : Nat) :
    (∃ token ∈ scan source, token.kind = .newline ∧ token.span.offset = offset) ↔
      ∃ before after, source.toList = before ++ '\n' :: after ∧ byteLength before = offset := by
  constructor
  · rintro ⟨token, scanned, newline, rfl⟩
    obtain ⟨front, back, split⟩ := List.append_of_mem scanned
    refine ⟨chars front, chars back, ?_, by rw [span_of_scan split]⟩
    rw [← chars_scan, split, chars_append, chars_cons, text_of_newline scanned newline]
    rfl
  · rintro ⟨before, after, split, rfl⟩
    rw [← chars_scan] at split
    obtain ⟨front, token, back, pre, post, scanned, text, rfl, rfl⟩ := exists_of_chars_eq split
    have within : token ∈ scan source := by
      rw [scanned]
      exact List.mem_append_right _ List.mem_cons_self
    have newline := (sound_of_mem_scan within).newline_mem_iff.mp (by simp [text])
    rw [text_of_newline within newline] at text
    obtain rfl : pre = [] := by
      rcases pre with _ | ⟨c, pre⟩
      · rfl
      · simp at text
    exact ⟨token, within, newline, by rw [span_of_scan scanned, List.append_nil]⟩

theorem countP_newline_scan (source : String) :
    (scan source).countP (·.kind == .newline) = source.toList.count '\n' := by
  rw [← count_newline_chars fun _ scanned => sound_of_mem_scan scanned, chars_scan]

/-- The tokens of a source tile it. There are at most as many tokens as characters, so the
scan ends. Each span is not empty, starts and stops between two characters, and cuts the
token's text out of the source; the spans follow one another from byte 0 to the end of the
source, and the cut texts put together give the source back. A token holds a line feed
exactly when it is a line-feed token, which is the line feed alone; line-feed tokens stand
exactly at the bytes where the source has a line feed, and there are as many of them as line
feeds. -/
theorem scan_tiles_source (source : String) :
    (scan source).length ≤ source.length ∧
    (∀ token ∈ scan source, 0 < token.span.length ∧
      String.Pos.Raw.IsValid source ⟨token.span.offset⟩ ∧
      String.Pos.Raw.IsValid source ⟨token.span.stop⟩ ∧
      String.Pos.Raw.extract source ⟨token.span.offset⟩ ⟨token.span.stop⟩ = token.text ∧
      ('\n' ∈ token.text.toList ↔ token.kind = .newline) ∧
      (token.kind = .newline → token.text = "\n")) ∧
    (scan source).map (·.span.offset) ++ [source.utf8ByteSize] =
      0 :: (scan source).map (·.span.stop) ∧
    String.join ((scan source).map fun token =>
      String.Pos.Raw.extract source ⟨token.span.offset⟩ ⟨token.span.stop⟩) = source ∧
    (∀ offset, (∃ token ∈ scan source, token.kind = .newline ∧ token.span.offset = offset) ↔
      ∃ before after, source.toList = before ++ '\n' :: after ∧ byteLength before = offset) ∧
    (scan source).countP (·.kind == .newline) = source.toList.count '\n' := by
  refine ⟨length_scan_le source, fun token scanned => ?_, offsets_scan source,
    join_extract_scan source, newline_token_iff source, countP_newline_scan source⟩
  have cuts := cuts_of_mem_scan scanned
  exact ⟨cuts.length_pos (text_ne_nil_of_mem_scanFrom scanned), cuts.isValid_offset,
    cuts.isValid_stop, extract_of_mem_scan scanned, (sound_of_mem_scan scanned).newline_mem_iff,
    text_of_newline scanned⟩

end Token

end ByteMachine
