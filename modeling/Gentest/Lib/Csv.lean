import Mathlib.Data.List.Basic
import Mathlib.Tactic.TypeStar

/-!
# Reading comma-separated values

A reader for the format of RFC 4180 over any alphabet with four marks. Records
end at a line feed, with or without a carriage return before it; the last one
may end with the text. A cell that starts with a quote runs to the closing
quote, and a doubled quote inside it stands for one.

`Writes` says which text stands for a cell. A text made of such cells, with a
comma between two of them and a line feed after the last one of a record, is
read back as those records.
-/

namespace Csv

structure Marks (α : Type*) where
  comma : α
  quote : α
  cr : α
  lf : α
  distinct : [comma, quote, cr, lf].Nodup

section

variable {α : Type*}

theorem Marks.comma_ne_quote (m : Marks α) : m.comma ≠ m.quote := by
  have h := m.distinct
  simp only [List.nodup_cons, List.mem_cons] at h
  exact fun heq => h.1 (.inl heq)

theorem Marks.lf_ne_quote (m : Marks α) : m.lf ≠ m.quote := by
  have h := m.distinct
  simp only [List.nodup_cons, List.mem_cons] at h
  exact fun heq => h.2.1 (.inr (.inl heq.symm))

theorem Marks.lf_ne_comma (m : Marks α) : m.lf ≠ m.comma := by
  have h := m.distinct
  simp only [List.nodup_cons, List.mem_cons] at h
  exact fun heq => h.1 (.inr (.inr (.inl heq.symm)))

theorem Marks.cr_ne_quote (m : Marks α) : m.cr ≠ m.quote := by
  have h := m.distinct
  simp only [List.nodup_cons, List.mem_cons] at h
  exact fun heq => h.2.1 (.inl heq.symm)

end

inductive Mode
  | start
  | plain
  | quoted
  /-- After a quote inside a quoted cell. -/
  | closed
  /-- After the carriage return that ends a record. -/
  | cr
  deriving DecidableEq, Repr

structure Reader (α : Type*) where
  records : List (List (List α)) := []
  record : List (List α) := []
  cell : List α := []
  mode : Mode := .start
  deriving DecidableEq, Repr

variable {α : Type*} [DecidableEq α] (m : Marks α)

def Reader.endCell (r : Reader α) : Reader α :=
  { r with record := r.record ++ [r.cell], cell := [], mode := .start }

def Reader.endRecord (r : Reader α) : Reader α :=
  { records := r.records ++ [r.record ++ [r.cell]] }

def Reader.add (r : Reader α) (mode : Mode) (a : α) : Reader α :=
  { r with cell := r.cell ++ [a], mode := mode }

/-- What ends a cell that is not inside quotes. -/
def Reader.leave (r : Reader α) (a : α) (otherwise : Option (Reader α)) : Option (Reader α) :=
  if a = m.comma then some r.endCell
  else if a = m.lf then some r.endRecord
  else if a = m.cr then some { r with mode := .cr }
  else otherwise

def Reader.feed (r : Reader α) (a : α) : Option (Reader α) :=
  match r.mode with
  | .start =>
    r.leave m a (if a = m.quote then some { r with mode := .quoted } else some (r.add .plain a))
  | .plain => r.leave m a (if a = m.quote then none else some (r.add .plain a))
  | .quoted =>
    if a = m.quote then some { r with mode := .closed } else some (r.add .quoted a)
  | .closed => r.leave m a (if a = m.quote then some (r.add .quoted a) else none)
  | .cr => if a = m.lf then some r.endRecord else none

def Reader.finish (r : Reader α) : Option (List (List (List α))) :=
  match r.mode with
  | .start => some (if r.record = [] then r.records else r.endRecord.records)
  | .plain | .closed => some r.endRecord.records
  | .quoted | .cr => none

def Reader.feedAll (r : Reader α) (text : List α) : Option (Reader α) :=
  text.foldlM (·.feed m) r

def read (text : List α) : Option (List (List (List α))) :=
  (Reader.feedAll m {} text).bind Reader.finish

-- ---------------------------------------------------------------------------
-- Cells
-- ---------------------------------------------------------------------------

variable {m} {r s : Reader α} {text more cell : List α}

@[simp] theorem Reader.feedAll_nil : r.feedAll m [] = some r := rfl

@[simp] theorem Reader.feedAll_cons {a : α} :
    r.feedAll m (a :: text) = (r.feed m a).bind (·.feedAll m text) := by
  simp [feedAll]

theorem Reader.feedAll_append :
    r.feedAll m (text ++ more) = (r.feedAll m text).bind (·.feedAll m more) := by
  simp [feedAll, List.foldlM_append]

/-- The cell is read and nothing but its end is missing. -/
def Reader.Holds (r s : Reader α) (cell : List α) : Prop :=
  s.cell = cell ∧ s.record = r.record ∧ s.records = r.records ∧
    (s.mode = .start ∨ s.mode = .plain ∨ s.mode = .closed)

theorem Reader.Holds.feed_comma (h : r.Holds s cell) :
    s.feed m m.comma =
      some { records := r.records, record := r.record ++ [cell] } := by
  obtain ⟨rfl, hrecord, hrecords, hmode⟩ := h
  rcases hmode with hmode | hmode | hmode <;>
    simp [feed, hmode, leave, endCell, hrecord, hrecords]

theorem Reader.Holds.feed_lf (h : r.Holds s cell) :
    s.feed m m.lf = some { records := r.records ++ [r.record ++ [cell]] } := by
  obtain ⟨rfl, hrecord, hrecords, hmode⟩ := h
  rcases hmode with hmode | hmode | hmode <;>
    simp [feed, hmode, leave, endRecord, m.lf_ne_comma, hrecord, hrecords]

theorem Reader.feedAll_plain (hmode : r.mode = .start ∨ r.mode = .plain)
    (hmarks : ∀ a ∈ text, a ∉ [m.comma, m.quote, m.cr, m.lf]) :
    ∃ s, r.feedAll m text = some s ∧ s.cell = r.cell ++ text ∧ s.record = r.record ∧
      s.records = r.records ∧ (s.mode = .start ∨ s.mode = .plain) := by
  induction text generalizing r with
  | nil => exact ⟨r, rfl, by simp, rfl, rfl, hmode⟩
  | cons a text ih =>
    have ha := hmarks a List.mem_cons_self
    simp only [List.mem_cons, not_or] at ha
    have hfeed : r.feed m a = some (r.add .plain a) := by
      rcases hmode with hmode | hmode <;> simp [feed, hmode, leave, ha]
    obtain ⟨s, hs, hcell, hrecord, hrecords, hmode⟩ :=
      ih (r := r.add .plain a) (.inr rfl) fun b hb => hmarks b (List.mem_cons_of_mem a hb)
    refine ⟨s, by simp [hfeed, hs], ?_, hrecord, hrecords, hmode⟩
    simp [hcell, add]

/-- The text between the quotes of a cell. -/
def double (quote : α) (cell : List α) : List α :=
  cell.flatMap fun a => if a = quote then [a, a] else [a]

theorem Reader.feedAll_double (hmode : r.mode = .quoted) :
    r.feedAll m (double m.quote cell) = some { r with cell := r.cell ++ cell } := by
  induction cell generalizing r with
  | nil => simp [double]
  | cons a cell ih =>
    have hnext := ih (r := { r with cell := r.cell ++ [a] }) hmode
    by_cases ha : a = m.quote
    · have hfeed : r.feedAll m [a, a] = some { r with cell := r.cell ++ [a] } := by
        simp [feed, hmode, ha, leave, add, m.comma_ne_quote.symm, m.lf_ne_quote.symm,
          m.cr_ne_quote.symm]
      have htext : double m.quote (a :: cell) = [a, a] ++ double m.quote cell := by
        simp [double, ha]
      rw [htext, feedAll_append, hfeed, Option.bind_some, hnext]
      simp
    · have hfeed : r.feedAll m [a] = some { r with cell := r.cell ++ [a] } := by
        simp [feed, hmode, ha, add]
      have htext : double m.quote (a :: cell) = [a] ++ double m.quote cell := by
        simp [double, ha]
      rw [htext, feedAll_append, hfeed, Option.bind_some, hnext]
      simp

/-- The texts of a cell: itself when it has no mark in it, or quoted. -/
inductive Writes (m : Marks α) (cell : List α) : List α → Prop
  | plain (hmarks : ∀ a ∈ cell, a ∉ [m.comma, m.quote, m.cr, m.lf]) : Writes m cell cell
  | quoted : Writes m cell (m.quote :: double m.quote cell ++ [m.quote])

theorem Reader.feedAll_writes (hmode : r.mode = .start) (hcell : r.cell = [])
    (h : Writes m cell text) : ∃ s, r.feedAll m text = some s ∧ r.Holds s cell := by
  cases h with
  | plain hmarks =>
    obtain ⟨s, hs, hscell, hrecord, hrecords, hmode⟩ := feedAll_plain (.inl hmode) hmarks
    refine ⟨s, hs, by simp [hscell, hcell], hrecord, hrecords, ?_⟩
    rcases hmode with hmode | hmode
    · exact .inl hmode
    · exact .inr (.inl hmode)
  | quoted =>
    have hopen : r.feed m m.quote = some { r with mode := .quoted } := by
      simp [feed, hmode, leave, m.comma_ne_quote.symm, m.lf_ne_quote.symm, m.cr_ne_quote.symm]
    have hclose : (Reader.mk r.records r.record cell .quoted).feed m m.quote =
        some { r with cell := cell, mode := .closed } := by
      simp [feed]
    refine ⟨{ r with cell := cell, mode := .closed }, ?_, rfl, rfl, rfl, .inr (.inr rfl)⟩
    rw [List.cons_append, feedAll_cons, hopen, Option.bind_some, feedAll_append,
      feedAll_double rfl]
    simp [hcell, hclose]

-- ---------------------------------------------------------------------------
-- Records
-- ---------------------------------------------------------------------------

/-- The text of a record: its cells with commas between them, and a line feed. -/
def recordText (m : Marks α) (write : List α → List α) (record : List (List α)) : List α :=
  [m.comma].intercalate (record.map write) ++ [m.lf]

theorem Reader.feedAll_recordText {write : List α → List α}
    (hwrite : ∀ cell, Writes m cell (write cell)) {record : List (List α)} (hne : record ≠ [])
    (hmode : r.mode = .start) (hcell : r.cell = []) :
    r.feedAll m (recordText m write record) =
      some { records := r.records ++ [r.record ++ record] } := by
  induction record generalizing r with
  | nil => exact absurd rfl hne
  | cons cell record ih =>
    obtain ⟨s, hs, hholds⟩ := feedAll_writes hmode hcell (hwrite cell)
    cases record with
    | nil =>
      simp [recordText, feedAll_append, hs, hholds.feed_lf]
    | cons next record =>
      have htext : recordText m write (cell :: next :: record) =
          write cell ++ m.comma :: recordText m write (next :: record) := by
        simp [recordText, List.intercalate]
      have hnext := ih (r := { records := r.records, record := r.record ++ [cell] })
        (by simp) rfl rfl
      rw [htext, feedAll_append, hs, Option.bind_some, feedAll_cons, hholds.feed_comma,
        Option.bind_some, hnext]
      simp

theorem Reader.feedAll_records {write : List α → List α}
    (hwrite : ∀ cell, Writes m cell (write cell)) {records : List (List (List α))}
    (hne : ∀ record ∈ records, record ≠ []) (done : List (List (List α))) :
    Reader.feedAll m { records := done } (records.flatMap (recordText m write)) =
      some { records := done ++ records } := by
  induction records generalizing done with
  | nil => simp
  | cons record records ih =>
    have hrecord := feedAll_recordText hwrite (r := { records := done })
      (hne record List.mem_cons_self) rfl rfl
    have hrest := ih (fun record hrecord => hne record (List.mem_cons_of_mem _ hrecord))
      (done ++ [record])
    rw [List.flatMap_cons, feedAll_append, hrecord]
    simpa using hrest

theorem read_records {write : List α → List α} (hwrite : ∀ cell, Writes m cell (write cell))
    {records : List (List (List α))} (hne : ∀ record ∈ records, record ≠ []) :
    read m (records.flatMap (recordText m write)) = some records := by
  simp [read, Reader.feedAll_records hwrite hne [], Reader.finish]

end Csv
