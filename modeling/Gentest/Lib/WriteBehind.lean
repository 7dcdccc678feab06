import Mathlib.Logic.Function.Basic
import Mathlib.Tactic.TypeStar

/-!
# Write-behind buffers

A store keeps a list for each key. What is written goes to a buffer that
belongs to one key and reaches the store only when the buffer is flushed. The
content of a key is what the store would hold after a flush: flushing and
handing the buffer to another key leave it alone, and a write adds to the
content of the buffer's owner.
-/

structure WriteBehind (κ α : Type*) where
  stored : κ → List α
  owner : Option κ
  pending : List α

namespace WriteBehind

variable {κ α : Type*} [DecidableEq κ] (b : WriteBehind κ α) {k : κ}

def content (k : κ) : List α := b.stored k ++ if b.owner = some k then b.pending else []

/-- Writes the buffer back when it belongs to the key. -/
def flush (k : κ) : WriteBehind κ α :=
  if b.owner = some k then
    { b with stored := Function.update b.stored k (b.stored k ++ b.pending), pending := [] }
  else b

/-- Flushes for the owner and gives the buffer to another key, or to none. -/
def handTo (next : Option κ) : WriteBehind κ α :=
  match b.owner with
  | some k => { b.flush k with owner := next }
  | none => { b with owner := next }

def write (a : α) : WriteBehind κ α := { b with pending := b.pending ++ [a] }

@[simp] theorem flush_owner : (b.flush k).owner = b.owner := by
  unfold flush
  split <;> rfl

@[simp] theorem handTo_owner (next : Option κ) : (b.handTo next).owner = next := by
  unfold handTo
  split <;> rfl

theorem flush_pending (howner : b.owner = some k) : (b.flush k).pending = [] := by
  simp [flush, howner]

theorem flush_pending_of_nil (hpending : b.pending = []) : (b.flush k).pending = [] := by
  unfold flush
  split <;> simp [hpending]

theorem handTo_pending (hidle : b.owner = none → b.pending = []) (next : Option κ) :
    (b.handTo next).pending = [] := by
  cases howner : b.owner with
  | none => simp [handTo, howner, hidle howner]
  | some k => simpa [handTo, howner] using b.flush_pending howner

theorem stored_isPrefix_content (j : κ) : b.stored j <+: b.content j :=
  List.prefix_append ..

theorem content_of_pending_nil (hpending : b.pending = []) (j : κ) :
    b.content j = b.stored j := by
  simp [content, hpending]

theorem content_flush (j : κ) : (b.flush k).content j = b.content j := by
  unfold flush
  split
  · rename_i howner
    by_cases hjk : j = k
    · simp [content, howner, hjk]
    · simp [content, howner, hjk, Ne.symm hjk]
  · rfl

/-- A buffer without owner has to be empty before it is handed over, or the
next owner inherits what was pending. -/
theorem content_handTo (hidle : b.owner = none → b.pending = []) (next : Option κ) (j : κ) :
    (b.handTo next).content j = b.content j := by
  cases howner : b.owner with
  | none =>
    have hpending := hidle howner
    simp [handTo, content, howner, hpending]
  | some k =>
    have hpending := b.flush_pending howner
    calc (b.handTo next).content j
        = (b.flush k).stored j := by simp [handTo, howner, content, hpending]
      _ = (b.flush k).content j := ((b.flush k).content_of_pending_nil hpending j).symm
      _ = b.content j := b.content_flush j

theorem content_write (howner : b.owner = some k) (a : α) (j : κ) :
    (b.write a).content j = b.content j ++ if j = k then [a] else [] := by
  by_cases hjk : j = k
  · simp [content, write, howner, hjk]
  · simp [content, write, howner, hjk, Ne.symm hjk]

end WriteBehind
