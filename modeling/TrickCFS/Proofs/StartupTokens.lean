import TrickCFS.StartupFile

/-! How the parser reads a line of the startup file. It deletes the commas before it
splits the line at the spaces, so the whitespace around the commas decides which
fields it finds. -/

namespace TrickCFS.Proofs.StartupTokens
open Words TrickCfsModule

def clean (text : Text) : Text := (text.filter (· ≠ ',')).filter (· ≠ ';')

theorem clean_append (first rest : Text) : clean (first ++ rest) = clean first ++ clean rest := by
  simp only [clean, List.filter_append]

theorem clean_of_plain {text : Text} (plain : ∀ char ∈ text, char ≠ ',' ∧ char ≠ ';') : clean text = text := by
  have commas : text.filter (· ≠ ',') = text := by
    apply List.filter_eq_self.mpr
    intro char member
    simp [plain char member]
  rw [clean, commas]
  apply List.filter_eq_self.mpr
  intro char member
  simp [plain char member]

theorem clean_field (field : Field) : clean field.text = field.text := clean_of_plain field.plain

theorem clean_plain (text : Text) : ∀ char ∈ clean text, char ≠ ',' ∧ char ≠ ';' := by
  intro char member
  simp only [clean, List.mem_filter, decide_eq_true_eq] at member
  exact ⟨member.1.2, member.2⟩

theorem type_solid (type : EntryType) : Solid Text.isSpace type.text := by
  cases type <;> decide

theorem clean_type (type : EntryType) : clean type.text = type.text := by
  cases type <;> decide

theorem lineFields_joinedLine {text : Text} (some : words Text.isSpace text ≠ []) :
    lineFields (joinedLine text) = (words Text.isSpace text).map clean := by
  have space : Text.isSpace ' ' = true := by decide
  simp only [lineFields, joinedLine, words_strip]
  rw [filter_intercalate _ (by decide), filter_intercalate _ (by decide), List.map_map]
  refine List.splitOn_intercalate ' ' ?_ (by simpa using some)
  intro piece member inside
  obtain ⟨word, isWord, rfl⟩ := List.mem_map.mp member
  have spaceInside : ' ' ∈ word := List.mem_of_mem_filter (List.mem_of_mem_filter inside)
  have solid := solid_words word isWord ' ' spaceInside
  rw [space] at solid
  cases solid

theorem joinedLine_head {lead text : Text} {char : Char} (blanks : Blanks Text.isSpace lead)
    (solid : Text.isSpace char = false) : (joinedLine (lead ++ char :: text)).head? = some char := by
  obtain ⟨word, others, found⟩ : ∃ word others, words Text.isSpace (char :: text) = (char :: word) :: others :=
    words_solid_cons solid
  rw [joinedLine, words_strip, words_blanks_append blanks, found]
  cases others <;> simp [List.intercalate_cons_cons]

/-- What the parser finds when it has read a word and the rest of the line is
this. A comma without whitespace joins two fields, and one that stands alone
leaves an empty field. -/
def tokens (last : Gap) : Text → List (Gap × Field) → List Text
  | word, [] => if last.before.text = [] then [word] else [word, []]
  | word, (gap, field) :: parts =>
    if gap.before.text = [] then
      if gap.after.text = [] then tokens last (word ++ field.text) parts
      else word :: tokens last field.text parts
    else if gap.after.text = [] then word :: tokens last field.text parts
    else word :: [] :: tokens last field.text parts

theorem solid_append {first rest : Text} (solid : Solid Text.isSpace first) (solidRest : Solid Text.isSpace rest) :
    Solid Text.isSpace (first ++ rest) :=
  fun char member => (List.mem_append.mp member).elim (solid char) (solidRest char)

theorem clean_comma (text : Text) : clean (',' :: text) = clean text := by simp [clean]

theorem clean_semicolon : clean [';'] = [] := by decide

theorem words_partsText (last : Gap) (parts : List (Gap × Field)) {word : Text} (solid : Solid Text.isSpace word)
    (nonempty : word ≠ []) :
    (words Text.isSpace (word ++ StartupLine.partsText last parts)).map clean = tokens last (clean word) parts := by
  have comma : Solid Text.isSpace [','] := by decide
  have semicolon : Solid Text.isSpace [';'] := by decide
  induction parts generalizing word with
  | nil =>
    have shape : word ++ StartupLine.partsText last [] =
        word ++ last.before.text ++ ([';'] ++ last.after.text) := by simp [StartupLine.partsText]
    rw [shape, tokens]
    by_cases before : last.before.text = []
    · rw [if_pos before, before, List.append_nil, ← List.append_assoc, words_append_blanks last.after.blanks,
        words_solid (solid_append solid semicolon) (by simp)]
      simp [clean_append, clean_semicolon]
    · rw [if_neg before, words_solid_append solid nonempty last.before.blanks before,
        words_append_blanks last.after.blanks, words_solid semicolon (by simp)]
      simp [clean_semicolon]
  | cons part parts ih =>
    obtain ⟨gap, field⟩ := part
    have joined : Solid Text.isSpace (',' :: field.text) := solid_append comma field.solid
    have field_words := ih field.solid field.nonempty
    have joined_words := ih joined (by simp)
    rw [clean_field] at field_words
    rw [clean_comma, clean_field] at joined_words
    have shape : word ++ StartupLine.partsText last ((gap, field) :: parts) =
        word ++ gap.before.text ++ ([','] ++ gap.after.text ++ (field.text ++ StartupLine.partsText last parts)) := by
      simp [StartupLine.partsText]
    rw [shape, tokens]
    by_cases before : gap.before.text = [] <;> by_cases after : gap.after.text = []
    · have both := ih (solid_append solid joined) (by simp)
      rw [clean_append, clean_comma, clean_field] at both
      rw [if_pos before, if_pos after, before, after, ← both]
      simp
    · have glued : Solid Text.isSpace (word ++ [',']) := solid_append solid comma
      have front : word ++ ([','] ++ gap.after.text ++ (field.text ++ StartupLine.partsText last parts)) =
          word ++ [','] ++ gap.after.text ++ (field.text ++ StartupLine.partsText last parts) := by simp
      rw [if_pos before, if_neg after, before, List.append_nil, front,
        words_solid_append glued (by simp) gap.after.blanks after, List.map_cons, field_words, clean_append]
      simp [clean]
    · rw [if_neg before, if_pos after, after, List.append_nil,
        words_solid_append solid nonempty gap.before.blanks before, List.map_cons]
      exact congrArg (clean word :: ·) joined_words
    · rw [if_neg before, if_neg after, words_solid_append solid nonempty gap.before.blanks before,
        words_solid_append comma (by simp) gap.after.blanks after, List.map_cons, List.map_cons, field_words]
      rfl

theorem tokens_head (last : Gap) (parts : List (Gap × Field)) (word : Text) :
    ∃ more others, tokens last word parts = (word ++ more) :: others := by
  induction parts generalizing word with
  | nil =>
    rw [tokens]
    split
    · exact ⟨[], [], by simp⟩
    · exact ⟨[], [[]], by simp⟩
  | cons part parts ih =>
    obtain ⟨gap, field⟩ := part
    rw [tokens]
    split
    · split
      · obtain ⟨more, others, found⟩ := ih (word ++ field.text)
        exact ⟨field.text ++ more, others, by rw [found, List.append_assoc]⟩
      · exact ⟨[], _, by rw [List.append_nil]⟩
    · split
      · exact ⟨[], _, by rw [List.append_nil]⟩
      · exact ⟨[], _, by rw [List.append_nil]⟩

theorem lineFields_text (line : StartupLine) :
    lineFields (joinedLine line.text) = tokens line.last line.entry.type.text line.parts := by
  have some : line.entry.type.text ≠ [] := by cases line.entry.type <;> decide
  have parsed := words_partsText line.last line.parts (type_solid line.entry.type) some
  have lead : words Text.isSpace line.text =
      words Text.isSpace (line.entry.type.text ++ StartupLine.partsText line.last line.parts) := by
    rw [StartupLine.text, List.append_assoc, words_blanks_append line.lead.blanks]
  rw [clean_type] at parsed
  rw [lineFields_joinedLine, lead, parsed]
  intro empty
  obtain ⟨more, others, found⟩ := tokens_head line.last line.parts line.entry.type.text
  rw [← lead, empty, found] at parsed
  cases parsed

theorem joinedLine_text (line : StartupLine) : (joinedLine line.text).head? = some 'C' := by
  obtain ⟨rest, shape⟩ : ∃ rest, line.entry.type.text = 'C' :: rest := by
    cases line.entry.type
    · exact ⟨"FE_APP".toList, by decide⟩
    · exact ⟨"FE_LIB".toList, by decide⟩
  rw [StartupLine.text, shape, List.append_assoc, List.cons_append]
  exact joinedLine_head line.lead.blanks (by decide)

section Spacing

/-- On how many sides of a comma there is whitespace. -/
def sides (gap : Gap) : Nat := (if gap.before.text = [] then 0 else 1) + (if gap.after.text = [] then 0 else 1)

/-- The places at which the parser splits a line. -/
def splits (last : Gap) : List (Gap × Field) → Nat
  | [] => if last.before.text = [] then 0 else 1
  | (gap, _) :: parts => sides gap + splits last parts

/-- The first commas have whitespace on one side, and the next one has some. -/
def Separated : Nat → List (Gap × Field) → Prop
  | 0, (gap, _) :: _ => sides gap ≠ 0
  | count + 1, (gap, _) :: parts => sides gap = 1 ∧ Separated count parts
  | _, [] => False

instance instDecidableSeparated : (count : Nat) → (parts : List (Gap × Field)) → Decidable (Separated count parts)
  | 0, (gap, _) :: _ => inferInstanceAs (Decidable (sides gap ≠ 0))
  | count + 1, (gap, _) :: parts =>
    have := instDecidableSeparated count parts
    inferInstanceAs (Decidable (sides gap = 1 ∧ Separated count parts))
  | 0, [] | _ + 1, [] => .isFalse id

theorem tokens_length (last : Gap) (parts : List (Gap × Field)) (word : Text) :
    (tokens last word parts).length = splits last parts + 1 := by
  induction parts generalizing word with
  | nil =>
    simp only [tokens, splits]
    split <;> simp
  | cons part parts ih =>
    obtain ⟨gap, field⟩ := part
    rw [tokens, splits, sides]
    split
    · split
      · rw [ih]; omega
      · rw [List.length_cons, ih]; omega
    · split
      · rw [List.length_cons, ih]; omega
      · rw [List.length_cons, List.length_cons, ih]; omega

/-- The parser finds the first fields exactly when the commas between them have
whitespace on one side. -/
theorem tokens_take_iff (last : Gap) {count : Nat} {parts : List (Gap × Field)} (inside : count < parts.length)
    (word : Text) :
    (tokens last word parts).take (count + 1) = word :: (parts.take count).map (fun part => part.2.text) ↔
      Separated count parts := by
  induction count generalizing parts word with
  | zero =>
    cases parts with
    | nil => cases inside
    | cons part parts =>
      obtain ⟨gap, field⟩ := part
      simp only [tokens, Separated, sides]
      split
      · split
        · obtain ⟨more, others, found⟩ := tokens_head last parts (word ++ field.text)
          simp [found, field.nonempty]
        · simp
      · split <;> simp
  | succ count ih =>
    cases parts with
    | nil => cases inside
    | cons part parts =>
      obtain ⟨gap, field⟩ := part
      have rest := ih (Nat.lt_of_succ_lt_succ inside) field.text
      simp only [tokens, Separated, sides]
      split
      · split
        · obtain ⟨more, others, found⟩ := tokens_head last parts (word ++ field.text)
          simp [found, field.nonempty]
        · simpa using rest
      · split
        · simpa using rest
        · simp [field.nonempty]

end Spacing

def Plain (text : Text) : Prop := Solid Text.isSpace text ∧ ∀ char ∈ text, char ≠ ',' ∧ char ≠ ';'

-- Named, since the search would also find the finitely many characters and try them all.
instance (text : Text) : Decidable (Plain text) :=
  @instDecidableAnd _ _ _ (List.decidableBAll (fun char => char ≠ ',' ∧ char ≠ ';') text)

theorem tokens_plain (line : StartupLine) :
    ∀ token ∈ tokens line.last line.entry.type.text line.parts, Plain token := by
  have some : line.entry.type.text ≠ [] := by cases line.entry.type <;> decide
  intro token member
  rw [← clean_type, ← words_partsText line.last line.parts (type_solid line.entry.type) some] at member
  obtain ⟨word, isWord, rfl⟩ := List.mem_map.mp member
  refine ⟨fun char inside => ?_, clean_plain word⟩
  exact solid_words word isWord char (List.mem_of_mem_filter (List.mem_of_mem_filter inside))

end TrickCFS.Proofs.StartupTokens
