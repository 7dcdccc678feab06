import Mathlib.Tactic.TypeStar

/-!
# Loops that return early

A loop over a list whose body says whether to stop. The rules carry an
invariant through the loop, also one that depends on the elements done.
-/

namespace Loops

variable {σ α : Type*} {body : α → σ → σ × Bool} {as : List α} {s : σ}

/-- Runs the body on each element until it asks to stop, and says whether it
did. -/
def loopUntil (body : α → σ → σ × Bool) : List α → σ → σ × Bool
  | [], s => (s, false)
  | a :: as, s => if (body a s).2 then body a s else loopUntil body as (body a s).1

attribute [local grind =] loopUntil

theorem loopUntil_append (as bs : List α) (s : σ) :
    loopUntil body (as ++ bs) s =
      if (loopUntil body as s).2 then loopUntil body as s else loopUntil body bs (loopUntil body as s).1 := by
  induction as generalizing s with
  | nil => rfl
  | cons a as ih =>
    simp only [List.cons_append, loopUntil]
    by_cases hstop : (body a s).2 = true
    · simp [hstop]
    · simpa [hstop] using ih _

theorem loopUntil_map {β : Type*} (f : β → α) (bs : List β) (s : σ) :
    loopUntil body (bs.map f) s = loopUntil (fun b => body (f b)) bs s := by
  induction bs generalizing s with
  | nil => rfl
  | cons b bs ih =>
    simp only [List.map_cons, loopUntil]
    split
    · rfl
    · exact ih _

theorem loopUntil_invariant {P : σ → Prop} (hbody : ∀ a ∈ as, ∀ s, P s → P (body a s).1) (hs : P s) :
    P (loopUntil body as s).1 := by
  induction as generalizing s with
  | nil => exact hs
  | cons a as ih =>
    have hnext := hbody a (List.mem_cons_self ..) s hs
    unfold loopUntil
    split
    · exact hnext
    · exact ih (fun b hb => hbody b (List.mem_cons_of_mem _ hb)) hnext

theorem loopUntil_goes {P : σ → Prop} {l : List α}
    (hbody : ∀ a s, P s → P (body a s).1 ∧ (body a s).2 = false) (hs : P s) :
    P (loopUntil body l s).1 ∧ (loopUntil body l s).2 = false := by
  induction l generalizing s with
  | nil => exact ⟨hs, rfl⟩
  | cons a l ih =>
    obtain ⟨hnext, hgo⟩ := hbody a s hs
    unfold loopUntil
    rw [hgo, if_neg Bool.false_ne_true]
    exact ih hnext

theorem loopUntil_stopped {Q : σ → Prop} (hbody : ∀ a s, (body a s).2 = true → Q (body a s).1)
    (h : (loopUntil body as s).2 = true) : Q (loopUntil body as s).1 := by
  induction as generalizing s with
  | nil => cases h
  | cons a as ih =>
    unfold loopUntil at h ⊢
    split
    · rename_i hstop
      exact hbody a s hstop
    · rename_i hstop
      rw [if_neg hstop] at h
      exact ih h

theorem loopUntil_kept {Q : σ → Prop} (hbody : ∀ a s, Q s → (body a s).2 = false → Q (body a s).1)
    (hs : Q s) (h : (loopUntil body as s).2 = false) : Q (loopUntil body as s).1 := by
  induction as generalizing s with
  | nil => exact hs
  | cons a as ih =>
    unfold loopUntil at h ⊢
    split
    · rename_i hstop
      rw [if_pos hstop, hstop] at h
      cases h
    · rename_i hstop
      rw [if_neg hstop] at h
      exact ih (hbody a s hs (by simpa using hstop)) h

/-- A loop that did not stop has done every element: `D a` is established by
the iteration of `a` and kept by the others. -/
theorem loopUntil_finished {P : σ → Prop} {D : α → σ → Prop} (hinv : ∀ a ∈ as, ∀ s, P s → P (body a s).1)
    (hdone : ∀ a ∈ as, ∀ s, P s → (body a s).2 = false → D a (body a s).1)
    (hkeep : ∀ a b s, P s → D a s → D a (body b s).1) (hs : P s)
    (h : (loopUntil body as s).2 = false) : ∀ a ∈ as, D a (loopUntil body as s).1 := by
  induction as generalizing s with
  | nil => exact nofun
  | cons a as ih =>
    unfold loopUntil at h ⊢
    split
    · rename_i hstop
      rw [if_pos hstop, hstop] at h
      cases h
    · rename_i hstop
      rw [if_neg hstop] at h
      have hnext := hinv a (List.mem_cons_self ..) s hs
      have hrest : ∀ b ∈ as, ∀ s, P s → P (body b s).1 :=
        fun b hb => hinv b (List.mem_cons_of_mem _ hb)
      intro b hb
      rcases List.mem_cons.mp hb with rfl | hb
      · have hthis := hdone b (List.mem_cons_self ..) s hs (by simpa using hstop)
        have hboth : P (loopUntil body as (body b s).1).1 ∧ D b (loopUntil body as (body b s).1).1 :=
          loopUntil_invariant (P := fun s => P s ∧ D b s)
            (fun c hc s hs => ⟨hrest c hc s hs.1, hkeep b c s hs.1 hs.2⟩) ⟨hnext, hthis⟩
        exact hboth.2
      · exact ih hrest (fun c hc => hdone c (List.mem_cons_of_mem _ hc)) hnext h b hb

theorem loopUntil_trace {β : Type*} {m : σ → List β} {f : α → List β}
    (hgo : ∀ a s, (body a s).2 = false → m (body a s).1 = m s ++ f a)
    (h : (loopUntil body as s).2 = false) : m (loopUntil body as s).1 = m s ++ as.flatMap f := by
  induction as generalizing s with
  | nil => simp [loopUntil]
  | cons a as ih =>
    unfold loopUntil at h ⊢
    split
    · rename_i hstop
      rw [if_pos hstop, hstop] at h
      cases h
    · rename_i hstop
      rw [if_neg hstop] at h
      rw [ih h, hgo a s (by simpa using hstop), List.flatMap_cons, List.append_assoc]

theorem loopUntil_trace_stopped {β : Type*} {m : σ → List β} {f : α → List β}
    (hgo : ∀ a s, (body a s).2 = false → m (body a s).1 = m s ++ f a)
    (hstop : ∀ a s, ∃ p, p <+: f a ∧ m (body a s).1 = m s ++ p) :
    ∃ p, p <+: as.flatMap f ∧ m (loopUntil body as s).1 = m s ++ p := by
  induction as generalizing s with
  | nil => exact ⟨[], List.nil_prefix, by simp [loopUntil]⟩
  | cons a as ih =>
    unfold loopUntil
    split
    · obtain ⟨p, hp, hm⟩ := hstop a s
      rw [List.flatMap_cons]
      exact ⟨p, List.IsPrefix.trans hp (List.prefix_append _ _), hm⟩
    · rename_i hgoes
      obtain ⟨p, hp, hm⟩ := ih (s := (body a s).1)
      refine ⟨f a ++ p, ?_, ?_⟩
      · rw [List.flatMap_cons]
        exact (List.prefix_append_right_inj _).mpr hp
      · rw [hm, hgo a s (by simpa using hgoes), List.append_assoc]

theorem loopUntil_fixed (h : ∀ a ∈ as, body a s = (s, false)) : loopUntil body as s = (s, false) := by
  induction as with
  | nil => rfl
  | cons a as ih =>
    rw [loopUntil, h a (List.mem_cons_self ..), if_neg Bool.false_ne_true]
    exact ih fun b hb => h b (List.mem_cons_of_mem _ hb)

/-- Two loops over one list run in step: `R` relates them while neither has
stopped, `R'` at the end. -/
theorem loopUntil_simulates {τ : Type*} {body' : α → τ → τ × Bool} {R R' : σ → τ → Prop} {t : τ}
    (hweaken : ∀ s t, R s t → R' s t)
    (hbody : ∀ a s t, R s t → R' (body a s).1 (body' a t).1 ∧ (body a s).2 = (body' a t).2 ∧
      ((body a s).2 = false → R (body a s).1 (body' a t).1))
    (h : R s t) :
    R' (loopUntil body as s).1 (loopUntil body' as t).1 ∧ (loopUntil body as s).2 = (loopUntil body' as t).2 ∧
      ((loopUntil body as s).2 = false → R (loopUntil body as s).1 (loopUntil body' as t).1) := by
  induction as generalizing s t with
  | nil => exact ⟨hweaken s t h, rfl, fun _ => h⟩
  | cons a as ih =>
    obtain ⟨hend, hsame, hgo⟩ := hbody a s t h
    unfold loopUntil
    cases hstop : (body a s).2 with
    | true =>
      have hstop' : (body' a t).2 = true := hsame.symm.trans hstop
      rw [if_pos rfl, if_pos hstop', hstop, hstop']
      exact ⟨hend, rfl, nofun⟩
    | false =>
      have hstop' : (body' a t).2 = false := hsame.symm.trans hstop
      rw [if_neg Bool.false_ne_true, if_neg (by rw [hstop']; exact Bool.false_ne_true)]
      exact ih (hgo hstop)

theorem foldl_invariant {f : σ → α → σ} {P : σ → Prop} (hf : ∀ a ∈ as, ∀ s, P s → P (f s a)) (hs : P s) :
    P (as.foldl f s) := by
  induction as generalizing s with
  | nil => exact hs
  | cons a as ih =>
    exact ih (fun b hb => hf b (List.mem_cons_of_mem _ hb)) (hf a (List.mem_cons_self ..) s hs)

theorem foldl_finished {f : σ → α → σ} {P : σ → Prop} {D : α → σ → Prop}
    (hinv : ∀ a ∈ as, ∀ s, P s → P (f s a)) (hdone : ∀ a ∈ as, ∀ s, P s → D a (f s a))
    (hkeep : ∀ a b s, P s → D a s → D a (f s b)) (hs : P s) : ∀ a ∈ as, D a (as.foldl f s) := by
  induction as generalizing s with
  | nil => exact nofun
  | cons a as ih =>
    have hnext := hinv a (List.mem_cons_self ..) s hs
    have hrest : ∀ b ∈ as, ∀ s, P s → P (f s b) := fun b hb => hinv b (List.mem_cons_of_mem _ hb)
    intro b hb
    rcases List.mem_cons.mp hb with rfl | hb
    · have hthis := hdone b (List.mem_cons_self ..) s hs
      have hboth : P (as.foldl f (f s b)) ∧ D b (as.foldl f (f s b)) :=
        foldl_invariant (P := fun s => P s ∧ D b s)
          (fun c hc s hs => ⟨hrest c hc s hs.1, hkeep b c s hs.1 hs.2⟩) ⟨hnext, hthis⟩
      exact hboth.2
    · exact ih hrest (fun c hc => hdone c (List.mem_cons_of_mem _ hc)) hnext b hb

end Loops
