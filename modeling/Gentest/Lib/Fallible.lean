import Mathlib.Data.List.Forall2

/-!
# Computations that can fail

When steps that can fail are run one after the other and the whole succeeds, each of
them succeeded. The rules here take a success apart into those of its steps.
-/

namespace Fallible

variable {ε α β : Type}

theorem bind_ok {x : Except ε α} {f : α → Except ε β} {b : β} :
    x >>= f = .ok b ↔ ∃ a, x = .ok a ∧ f a = .ok b := by
  cases x with
  | error e => exact ⟨fun h => (nomatch h), fun ⟨_, h, _⟩ => (nomatch h)⟩
  | ok a => exact ⟨fun h => ⟨a, rfl, h⟩, fun ⟨_, ha, h⟩ => by cases ha; exact h⟩

theorem forM_ok {f : α → Except ε Unit} {items : List α} : items.forM f = .ok () ↔ ∀ a ∈ items, f a = .ok () := by
  induction items with
  | nil => exact ⟨fun _ _ h => (nomatch h), fun _ => rfl⟩
  | cons a items ih =>
    have hcons : (a :: items).forM f = f a >>= fun _ => items.forM f := rfl
    rw [hcons, bind_ok, List.forall_mem_cons, ← ih]
    exact ⟨fun ⟨_, ha, hmore⟩ => ⟨ha, hmore⟩, fun ⟨ha, hmore⟩ => ⟨(), ha, hmore⟩⟩

theorem mapM_ok {f : α → Except ε β} {items : List α} {outs : List β} :
    items.mapM f = .ok outs ↔ List.Forall₂ (fun a b => f a = .ok b) items outs := by
  induction items generalizing outs with
  | nil =>
    rw [List.mapM_nil]
    constructor
    · intro h
      cases h
      exact .nil
    · rintro ⟨⟩
      rfl
  | cons a items ih =>
    rw [List.mapM_cons, bind_ok]
    constructor
    · rintro ⟨b, hb, h⟩
      obtain ⟨bs, hbs, h⟩ := bind_ok.mp h
      cases h
      exact .cons hb (ih.mp hbs)
    · rintro (_ | ⟨hb, hbs⟩)
      exact ⟨_, hb, bind_ok.mpr ⟨_, ih.mpr hbs, rfl⟩⟩

theorem exists_of_mapM_ok {f : α → Except ε β} {items : List α} {outs : List β} (h : items.mapM f = .ok outs) {b : β}
    (hb : b ∈ outs) : ∃ a ∈ items, f a = .ok b := by
  induction mapM_ok.mp h with
  | nil => cases hb
  | cons ha _ ih =>
    obtain rfl | hb := List.mem_cons.mp hb
    · exact ⟨_, List.mem_cons_self, ha⟩
    · obtain ⟨a, hmem, hstep⟩ := ih (mapM_ok.mpr ‹_›) hb
      exact ⟨a, List.mem_cons_of_mem _ hmem, hstep⟩

theorem mapM_ok_of_forall {f : α → Except ε β} {g : α → β} {items : List α} (h : ∀ a ∈ items, f a = .ok (g a)) :
    items.mapM f = .ok (items.map g) :=
  mapM_ok.mpr (List.forall₂_map_right_iff.mpr (List.forall₂_same.mpr h))

theorem mapM_some_of_forall {f : α → Option β} {g : α → β} {items : List α} (h : ∀ a ∈ items, f a = some (g a)) :
    items.mapM f = some (items.map g) := by
  induction items with
  | nil => rfl
  | cons a items ih =>
    rw [List.mapM_cons, h a List.mem_cons_self, ih fun a ha => h a (List.mem_cons_of_mem _ ha)]
    rfl

theorem mapM_some_mono {f g : α → Option β} (h : ∀ a b, f a = some b → g a = some b) {items : List α} {outs : List β}
    (houts : items.mapM f = some outs) : items.mapM g = some outs := by
  induction items generalizing outs with
  | nil => exact houts
  | cons a items ih =>
    rw [List.mapM_cons] at houts ⊢
    obtain ⟨b, hb, hrest⟩ := Option.bind_eq_some_iff.mp houts
    obtain ⟨bs, hbs, hpure⟩ := Option.bind_eq_some_iff.mp hrest
    rw [h a b hb, ih hbs]
    exact hpure

theorem isSome_mapM {f : α → Option β} {items : List α} :
    (items.mapM f).isSome = true ↔ ∀ a ∈ items, (f a).isSome = true := by
  induction items with
  | nil => exact ⟨fun _ _ h => (nomatch h), fun _ => rfl⟩
  | cons a items ih =>
    rw [List.forall_mem_cons, ← ih, List.mapM_cons]
    cases f a with
    | none => exact ⟨fun h => (nomatch h), fun h => (nomatch h.1)⟩
    | some b =>
      cases items.mapM f with
      | none => exact ⟨fun h => (nomatch h), fun h => (nomatch h.2)⟩
      | some bs => exact ⟨fun _ => ⟨rfl, rfl⟩, fun _ => rfl⟩

end Fallible
