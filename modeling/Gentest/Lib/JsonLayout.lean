import Gentest.Lib.Json

/-!
# JSON with white space

What the reader makes of a text laid out in lines, item by item: a value with
white space before it, and items one a line with commas between them.
-/

namespace Json

def Blank (space : List Char) : Prop := ∀ c ∈ space, isSpace c = true

theorem skipSpace_blank {space : List Char} (h : Blank space) (text : List Char) :
    skipSpace (space ++ text) = skipSpace text := by
  simp only [skipSpace, List.dropWhile_append_of_pos h]

/-- The value is read from the front of every text that begins so. -/
def Reads (text : List Char) (j : Json) : Prop :=
  ∀ fuel rest, text.length ≤ fuel → readValue fuel (text ++ rest) = some (j, rest)

/-- Elements up to the closing bracket. -/
def ReadsElements (text : List Char) (js : List Json) : Prop :=
  ∀ fuel rest, text.length ≤ fuel → readElements fuel (text ++ rest) = some (js, rest)

/-- Members up to the closing brace. -/
def ReadsMembers (text : List Char) (ms : List (List Char × Json)) : Prop :=
  ∀ fuel rest, text.length ≤ fuel → readMembers fuel (text ++ rest) = some (ms, rest)

/-- The characters of a string up to its closing quote. -/
def ReadsChars (text s : List Char) : Prop := ∀ rest, readString (text ++ '"' :: rest) = some (s, rest)

-- ---------------------------------------------------------------------------
-- Values
-- ---------------------------------------------------------------------------

theorem reads_str {text s : List Char} (h : ReadsChars text s) : Reads ('"' :: (text ++ ['"'])) (.str s) := by
  intro fuel rest hfuel
  cases fuel with
  | zero => simp at hfuel
  | succ fuel =>
    rw [List.cons_append, readValue, skipSpace_cons (by decide), List.append_assoc]
    simp [h rest]

theorem reads_word {word : String} {j : Json}
    (h : (word, j) ∈ [("null", Json.null), ("true", .bool true), ("false", .bool false)]) : Reads word.toList j := by
  intro fuel rest hfuel
  cases fuel with
  | zero =>
    simp only [List.mem_cons, Prod.mk.injEq, List.not_mem_nil, or_false] at h
    rcases h with ⟨rfl, rfl⟩ | ⟨rfl, rfl⟩ | ⟨rfl, rfl⟩ <;> simp at hfuel
  | succ fuel => exact readValue_word fuel rest h

theorem Reads.blank {text space : List Char} {j : Json} (h : Reads text j) (hspace : Blank space) :
    Reads (space ++ text) j := by
  intro fuel rest hfuel
  have hread := h fuel rest (by rw [List.length_append] at hfuel; omega)
  cases fuel with
  | zero => exact absurd hread nofun
  | succ fuel =>
    rw [readValue] at hread ⊢
    rw [List.append_assoc, skipSpace_blank hspace]
    exact hread

theorem read_of_reads {text space : List Char} {j : Json} (h : Reads text j) (hspace : Blank space) :
    read (text ++ space) = some j := by
  have hread := h ((text ++ space).length + 1) space (by rw [List.length_append]; omega)
  have hdrop : skipSpace space = [] := List.dropWhile_eq_nil_iff.mpr hspace
  rw [read, hread]
  simp [hdrop]

-- ---------------------------------------------------------------------------
-- Arrays
-- ---------------------------------------------------------------------------

theorem readsElements_last {text space : List Char} {j : Json} (h : Reads text j) (hspace : Blank space) :
    ReadsElements (text ++ space ++ [']']) [j] := by
  intro fuel rest hfuel
  simp only [List.length_append, List.length_singleton] at hfuel
  cases fuel with
  | zero => omega
  | succ fuel =>
    have hread := h fuel (space ++ ']' :: rest) (by omega)
    rw [List.append_assoc, List.append_assoc, List.singleton_append, readElements, hread]
    simp only [Option.bind_eq_bind, Option.bind_some, skipSpace_blank hspace, skipSpace_cons (by decide : isSpace ']' = false)]

theorem readsElements_cons {text texts : List Char} {j : Json} {js : List Json} (h : Reads text j)
    (hs : ReadsElements texts js) : ReadsElements (text ++ ',' :: texts) (j :: js) := by
  intro fuel rest hfuel
  simp only [List.length_append, List.length_cons] at hfuel
  cases fuel with
  | zero => omega
  | succ fuel =>
    have hread := h fuel (',' :: texts ++ rest) (by omega)
    rw [List.append_assoc, readElements, hread]
    simp only [Option.bind_eq_bind, Option.bind_some, List.cons_append, skipSpace_cons (by decide : isSpace ',' = false),
      hs fuel rest (by omega)]
    rfl

theorem skipSpace_idem (text : List Char) : skipSpace (skipSpace text) = skipSpace text := by
  simp only [skipSpace, List.dropWhile_eq_self_iff]
  exact fun hl => List.dropWhile_get_zero_not isSpace text hl

theorem readValue_skipSpace (fuel : Nat) (text : List Char) : readValue fuel (skipSpace text) = readValue fuel text := by
  cases fuel with
  | zero => rfl
  | succ fuel => rw [readValue, readValue, skipSpace_idem]

theorem readElements_skipSpace (fuel : Nat) (text : List Char) :
    readElements fuel (skipSpace text) = readElements fuel text := by
  cases fuel with
  | zero => rfl
  | succ fuel => rw [readElements, readElements, readValue_skipSpace]

theorem readElements_closed {fuel : Nat} {text rest : List Char} (h : skipSpace text = ']' :: rest) :
    readElements fuel text = none := by
  have hvalue : ∀ fuel, readValue fuel text = none := by
    rintro (_ | fuel)
    · rfl
    · rw [readValue, h]
      rfl
  cases fuel with
  | zero => rfl
  | succ fuel =>
    rw [readElements, hvalue]
    rfl

theorem reads_arr {text : List Char} {js : List Json} (h : ReadsElements text js) : Reads ('[' :: text) (.arr js) := by
  intro fuel rest hfuel
  rw [List.length_cons] at hfuel
  cases fuel with
  | zero => omega
  | succ fuel =>
    have hread := h fuel rest (by omega)
    rw [List.cons_append, readValue, skipSpace_cons (by decide)]
    simp only
    split
    · rename_i heq
      rw [readElements_closed heq] at hread
      cases hread
    · rw [readElements_skipSpace, hread]
      rfl

theorem reads_arr_nil {space : List Char} (hspace : Blank space) : Reads ('[' :: (space ++ [']'])) (.arr []) := by
  intro fuel rest hfuel
  cases fuel with
  | zero => simp at hfuel
  | succ fuel =>
    rw [List.cons_append, readValue, skipSpace_cons (by decide), List.append_assoc, List.singleton_append]
    simp only [skipSpace_blank hspace, skipSpace_cons (by decide : isSpace ']' = false)]

-- ---------------------------------------------------------------------------
-- Objects
-- ---------------------------------------------------------------------------

/-- White space, a key and a value. -/
def ReadsMember (text : List Char) (m : List Char × Json) : Prop :=
  ∃ space key value, Blank space ∧ ReadsChars key m.1 ∧ Reads value m.2 ∧
    text = space ++ '"' :: (key ++ '"' :: ':' :: value)

theorem ReadsMember.readMembers_end {text follow rest : List Char} {m : List Char × Json} (h : ReadsMember text m)
    {fuel : Nat} (hfuel : text.length ≤ fuel) (hfollow : skipSpace follow = '}' :: rest) :
    readMembers (fuel + 1) (text ++ follow) = some ([m], rest) := by
  obtain ⟨space, key, value, hspace, hkey, hvalue, rfl⟩ := h
  simp only [List.length_append, List.length_cons] at hfuel
  have hread := hvalue fuel follow (by omega)
  have hchars := hkey (':' :: (value ++ follow))
  rw [readMembers]
  simp only [List.append_assoc, List.cons_append, skipSpace_blank hspace, skipSpace_cons (by decide : isSpace '"' = false),
    skipSpace_cons (by decide : isSpace ':' = false), hchars, Option.bind_eq_bind, Option.bind_some, hread, hfollow]

theorem ReadsMember.readMembers_next {text follow texts rest : List Char} {m : List Char × Json}
    {ms : List (List Char × Json)} (h : ReadsMember text m) {fuel : Nat} (hfuel : text.length ≤ fuel)
    (hfollow : skipSpace follow = ',' :: texts) (hrest : readMembers fuel texts = some (ms, rest)) :
    readMembers (fuel + 1) (text ++ follow) = some (m :: ms, rest) := by
  obtain ⟨space, key, value, hspace, hkey, hvalue, rfl⟩ := h
  simp only [List.length_append, List.length_cons] at hfuel
  have hread := hvalue fuel follow (by omega)
  have hchars := hkey (':' :: (value ++ follow))
  rw [readMembers]
  simp only [List.append_assoc, List.cons_append, skipSpace_blank hspace, skipSpace_cons (by decide : isSpace '"' = false),
    skipSpace_cons (by decide : isSpace ':' = false), hchars, Option.bind_eq_bind, Option.bind_some, hread, hfollow, hrest]
  rfl

theorem readsMembers_last {text space : List Char} {m : List Char × Json} (h : ReadsMember text m)
    (hspace : Blank space) : ReadsMembers (text ++ space ++ ['}']) [m] := by
  intro fuel rest hfuel
  simp only [List.length_append, List.length_singleton] at hfuel
  cases fuel with
  | zero => omega
  | succ fuel =>
    rw [List.append_assoc, List.append_assoc, List.singleton_append]
    refine h.readMembers_end (by omega) ?_
    rw [skipSpace_blank hspace, skipSpace_cons (by decide)]

theorem readsMembers_cons {text texts : List Char} {m : List Char × Json} {ms : List (List Char × Json)}
    (h : ReadsMember text m) (hs : ReadsMembers texts ms) : ReadsMembers (text ++ ',' :: texts) (m :: ms) := by
  intro fuel rest hfuel
  simp only [List.length_append, List.length_cons] at hfuel
  cases fuel with
  | zero => omega
  | succ fuel =>
    rw [List.append_assoc, List.cons_append]
    exact h.readMembers_next (by omega) (skipSpace_cons (by decide) _) (hs fuel rest (by omega))

theorem readMembers_skipSpace (fuel : Nat) (text : List Char) :
    readMembers fuel (skipSpace text) = readMembers fuel text := by
  cases fuel with
  | zero => rfl
  | succ fuel => rw [readMembers, readMembers, skipSpace_idem]

theorem readMembers_closed {fuel : Nat} {text rest : List Char} (h : skipSpace text = '}' :: rest) :
    readMembers fuel text = none := by
  cases fuel with
  | zero => rfl
  | succ fuel =>
    rw [readMembers, h]
    rfl

theorem reads_obj {text : List Char} {ms : List (List Char × Json)} (h : ReadsMembers text ms) :
    Reads ('{' :: text) (.obj ms) := by
  intro fuel rest hfuel
  rw [List.length_cons] at hfuel
  cases fuel with
  | zero => omega
  | succ fuel =>
    have hread := h fuel rest (by omega)
    rw [List.cons_append, readValue, skipSpace_cons (by decide)]
    simp only
    split
    · rename_i heq
      rw [readMembers_closed heq] at hread
      cases hread
    · rw [readMembers_skipSpace, hread]
      rfl

-- ---------------------------------------------------------------------------
-- One item a line
-- ---------------------------------------------------------------------------

/-- Items one a line, with commas between them. -/
def commaLines : List (List Char) → List Char
  | [] => []
  | [item] => item ++ ['\n']
  | item :: next :: items => item ++ ',' :: '\n' :: commaLines (next :: items)

variable {α : Type*} {space : List Char}

theorem blank_newline (hspace : Blank space) : Blank ('\n' :: space) := List.forall_mem_cons.mpr ⟨by decide, hspace⟩

theorem ReadsElements.blank {text : List Char} {js : List Json} (h : ReadsElements text js) (hspace : Blank space) :
    ReadsElements (space ++ text) js := by
  intro fuel rest hfuel
  rw [List.length_append] at hfuel
  rw [← h fuel rest (by omega), List.append_assoc, ← readElements_skipSpace, skipSpace_blank hspace, readElements_skipSpace]

theorem ReadsMembers.blank {text : List Char} {ms : List (List Char × Json)} (h : ReadsMembers text ms)
    (hspace : Blank space) : ReadsMembers (space ++ text) ms := by
  intro fuel rest hfuel
  rw [List.length_append] at hfuel
  rw [← h fuel rest (by omega), List.append_assoc, ← readMembers_skipSpace, skipSpace_blank hspace, readMembers_skipSpace]

theorem blank_lf : Blank ['\n'] := by simp [Blank, isSpace]

theorem readsElements_lines {write : α → List Char} {value : α → Json} {items : List α} (hspace : Blank space)
    (hne : items ≠ []) (h : ∀ a ∈ items, Reads (write a) (value a)) :
    ReadsElements (commaLines (items.map write) ++ space ++ [']']) (items.map value) := by
  induction items with
  | nil => exact absurd rfl hne
  | cons a items ih =>
    obtain ⟨ha, hrest⟩ := List.forall_mem_cons.mp h
    cases items with
    | nil =>
      have hlast := readsElements_last ha (blank_newline hspace)
      simpa [commaLines] using hlast
    | cons b items =>
      have hnext := readsElements_cons ha ((ih (List.cons_ne_nil _ _) hrest).blank blank_lf)
      simpa [commaLines] using hnext

theorem readsMembers_lines {write : α → List Char} {value : α → List Char × Json} {items : List α} (hspace : Blank space)
    (hne : items ≠ []) (h : ∀ a ∈ items, ReadsMember (write a) (value a)) :
    ReadsMembers (commaLines (items.map write) ++ space ++ ['}']) (items.map value) := by
  induction items with
  | nil => exact absurd rfl hne
  | cons a items ih =>
    obtain ⟨ha, hrest⟩ := List.forall_mem_cons.mp h
    cases items with
    | nil =>
      have hlast := readsMembers_last ha (blank_newline hspace)
      simpa [commaLines] using hlast
    | cons b items =>
      have hnext := readsMembers_cons ha ((ih (List.cons_ne_nil _ _) hrest).blank blank_lf)
      simpa [commaLines] using hnext

theorem reads_arr_lines (write : α → List Char) (value : α → Json) {items : List α} (hspace : Blank space)
    (h : ∀ a ∈ items, Reads (write a) (value a)) :
    Reads ('[' :: '\n' :: (commaLines (items.map write) ++ space ++ [']'])) (.arr (items.map value)) := by
  cases items with
  | nil => exact reads_arr_nil (blank_newline hspace)
  | cons a items => exact reads_arr ((readsElements_lines hspace (List.cons_ne_nil _ _) h).blank blank_lf)

theorem reads_obj_lines (write : α → List Char) (value : α → List Char × Json) {items : List α} (hspace : Blank space)
    (hne : items ≠ []) (h : ∀ a ∈ items, ReadsMember (write a) (value a)) :
    Reads ('{' :: '\n' :: (commaLines (items.map write) ++ space ++ ['}'])) (.obj (items.map value)) :=
  reads_obj ((readsMembers_lines hspace hne h).blank blank_lf)

end Json
