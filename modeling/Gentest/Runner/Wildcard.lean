import Gentest.Lib.WhileLoops
import Mathlib.Data.List.Basic
import Mathlib.Data.Nat.Find

/-!
# Filter patterns

`wildcard_match` walks over the text and the pattern and remembers the last star it
passed, to come back to when the rest does not fit. A pattern character that equals
the text's is taken for itself before it is looked at as a star, so a star of the
pattern that meets a star of the text is no wildcard.
-/

namespace Gentest.Runner

open WhileLoops

-- ---------------------------------------------------------------------------
-- The matcher
-- ---------------------------------------------------------------------------

/-- What is left of the text and the pattern, and behind the last star the pattern
and the text it was last tried on. -/
structure WildcardCursor where
  text : List Char
  pattern : List Char
  star : Option (List Char × List Char) := none
  deriving DecidableEq, Repr

def WildcardCursor.retry (s : WildcardCursor) : Step WildcardCursor Bool :=
  match s.star with
  | some (pattern, mark) => .next { text := mark.tail, pattern := pattern, star := some (pattern, mark.tail) }
  | none => .done false

/-- One turn of the loop of `wildcard_match`, or what follows it. -/
def WildcardCursor.step (s : WildcardCursor) : Step WildcardCursor Bool :=
  match s.text, s.pattern with
  | [], pattern => .done (pattern.dropWhile (· = '*')).isEmpty
  | c :: text, p :: pattern =>
    if p = '?' ∨ p = c then .next { s with text := text, pattern := pattern }
    else if p = '*' then .next { s with pattern := pattern, star := some (pattern, s.text) }
    else s.retry
  | _ :: _, [] => s.retry

/-- `wildcard_match` returns a value. -/
def WildcardMatch (text pattern : List Char) (result : Bool) : Prop :=
  Ends WildcardCursor.step { text, pattern } result

-- ---------------------------------------------------------------------------
-- What a pattern means
-- ---------------------------------------------------------------------------

/-- Each star stands for some text, each `?` for one character, everything else for
itself. -/
inductive Glob : List Char → List Char → Prop
  | nil : Glob [] []
  | star {pattern text} (skipped : List Char) : Glob pattern text → Glob ('*' :: pattern) (skipped ++ text)
  | any {pattern text} (c : Char) : Glob pattern text → Glob ('?' :: pattern) (c :: text)
  | literal {pattern text} {c : Char} : c ≠ '*' → c ≠ '?' → Glob pattern text → Glob (c :: pattern) (c :: text)

section

variable {p c : Char} {pattern text front : List Char}

theorem Glob.nil_left (h : Glob [] text) : text = [] := by
  cases h
  rfl

theorem glob_star_iff : Glob ('*' :: pattern) text ↔ ∃ k, Glob pattern (text.drop k) := by
  constructor
  · intro h
    cases h with
    | star skipped h => exact ⟨skipped.length, by simpa using h⟩
    | literal hstar => exact absurd rfl hstar
  · rintro ⟨k, h⟩
    rw [← List.take_append_drop k text]
    exact .star _ h

theorem glob_cons_iff (hp : p ≠ '*') :
    Glob (p :: pattern) (c :: text) ↔ (p = '?' ∨ p = c) ∧ Glob pattern text := by
  constructor
  · intro h
    generalize hwhole : c :: text = whole at h
    cases h with
    | star => exact absurd rfl hp
    | any c h =>
      obtain ⟨rfl, rfl⟩ := List.cons.inj hwhole
      exact ⟨.inl rfl, h⟩
    | literal _ _ h =>
      obtain ⟨rfl, rfl⟩ := List.cons.inj hwhole
      exact ⟨.inr rfl, h⟩
  · rintro ⟨rfl | rfl, h⟩
    · exact .any c h
    · by_cases hany : p = '?'
      · subst hany
        exact .any _ h
      · exact .literal hp hany h

theorem not_glob_cons_nil (hp : p ≠ '*') : ¬Glob (p :: pattern) [] := by
  intro h
  generalize hwhole : ([] : List Char) = whole at h
  cases h with
  | star => exact hp rfl
  | any => cases hwhole
  | literal => cases hwhole

theorem glob_nil_right : Glob pattern [] ↔ (pattern.dropWhile (· = '*')).isEmpty = true := by
  induction pattern with
  | nil => simpa using Glob.nil
  | cons p pattern ih =>
    by_cases hp : p = '*'
    · subst hp
      rw [glob_star_iff]
      simpa using ih
    · simp [hp, not_glob_cons_nil hp]

theorem Glob.append {pattern' text' : List Char} (h : Glob pattern text) (h' : Glob pattern' text') :
    Glob (pattern ++ pattern') (text ++ text') := by
  induction h with
  | nil => exact h'
  | star skipped _ ih =>
    rw [List.cons_append, List.append_assoc]
    exact .star skipped ih
  | any c _ ih => exact .any c ih
  | literal hstar hany _ ih => exact .literal hstar hany ih

theorem Glob.drop_front (hfront : '*' ∉ front) (h : Glob (front ++ pattern) text) :
    front.length ≤ text.length ∧ Glob pattern (text.drop front.length) := by
  induction front generalizing text with
  | nil => simpa using h
  | cons p front ih =>
    rw [List.mem_cons, not_or] at hfront
    obtain ⟨hp, hrest⟩ := hfront
    cases text with
    | nil => exact absurd h (not_glob_cons_nil (Ne.symm hp))
    | cons c text =>
      have htail := ih hrest ((glob_cons_iff (Ne.symm hp)).mp h).2
      simpa using htail

end

-- ---------------------------------------------------------------------------
-- Turns
-- ---------------------------------------------------------------------------

section

variable {s s' : WildcardCursor} {result : Bool}

/-- The pattern's next character, if there is one, fits neither as itself nor as a
wildcard. -/
def Stuck (c : Char) (pattern : List Char) : Prop :=
  ∀ p ∈ pattern.head?, p ≠ '?' ∧ p ≠ c ∧ p ≠ '*'

theorem Stuck.not_glob {c : Char} {pattern text : List Char} (h : Stuck c pattern) :
    ¬Glob pattern (c :: text) := by
  intro hglob
  cases pattern with
  | nil => cases hglob.nil_left
  | cons p pattern =>
    obtain ⟨hany, hself, hstar⟩ := h p rfl
    rcases ((glob_cons_iff hstar).mp hglob).1 with rfl | rfl
    · exact hany rfl
    · exact hself rfl

theorem WildcardCursor.retry_next (h : s.retry = .next s') :
    ∃ pattern mark, s.star = some (pattern, mark) ∧
      s' = { text := mark.tail, pattern, star := some (pattern, mark.tail) } := by
  unfold WildcardCursor.retry at h
  split at h
  · rename_i pattern mark hstar
    exact ⟨pattern, mark, hstar, (Step.next.inj h).symm⟩
  · cases h

theorem WildcardCursor.retry_done (h : s.retry = .done result) : s.star = none ∧ result = false := by
  unfold WildcardCursor.retry at h
  split at h
  · cases h
  · rename_i hstar
    exact ⟨hstar, (Step.done.inj h).symm⟩

theorem WildcardCursor.step_next (h : s.step = .next s') :
    (∃ c text p pattern, s.text = c :: text ∧ s.pattern = p :: pattern ∧ (p = '?' ∨ p = c) ∧
      s' = { s with text := text, pattern := pattern }) ∨
    (∃ c text pattern, s.text = c :: text ∧ s.pattern = '*' :: pattern ∧ c ≠ '*' ∧
      s' = { s with pattern := pattern, star := some (pattern, s.text) }) ∨
    ∃ c text pattern mark, s.text = c :: text ∧ Stuck c s.pattern ∧ s.star = some (pattern, mark) ∧
      s' = { text := mark.tail, pattern, star := some (pattern, mark.tail) } := by
  unfold WildcardCursor.step at h
  split at h
  · cases h
  · rename_i c text p pattern htext hpattern
    split at h
    · rename_i hfits
      exact .inl ⟨c, text, p, pattern, htext, hpattern, hfits, (Step.next.inj h).symm⟩
    · rename_i hfits
      rw [not_or] at hfits
      split at h
      · rename_i hstar
        subst hstar
        exact .inr (.inl ⟨c, text, pattern, htext, hpattern, Ne.symm hfits.2, (Step.next.inj h).symm⟩)
      · rename_i hstar
        obtain ⟨behind, mark, hlast, rfl⟩ := retry_next h
        refine .inr (.inr ⟨c, text, behind, mark, htext, ?_, hlast, rfl⟩)
        rw [hpattern]
        rintro q ⟨⟩
        exact ⟨hfits.1, hfits.2, hstar⟩
  · rename_i c text htext hpattern
    obtain ⟨behind, mark, hlast, rfl⟩ := retry_next h
    refine .inr (.inr ⟨c, text, behind, mark, htext, ?_, hlast, rfl⟩)
    rw [hpattern]
    exact nofun

theorem WildcardCursor.step_done (h : s.step = .done result) :
    (s.text = [] ∧ result = (s.pattern.dropWhile (· = '*')).isEmpty) ∨
    ∃ c text, s.text = c :: text ∧ Stuck c s.pattern ∧ s.star = none ∧ result = false := by
  unfold WildcardCursor.step at h
  split at h
  · rename_i pattern htext
    exact .inl ⟨htext, (Step.done.inj h).symm⟩
  · rename_i c text p pattern htext hpattern
    split at h
    · cases h
    · rename_i hfits
      rw [not_or] at hfits
      split at h
      · cases h
      · rename_i hstar
        obtain ⟨hlast, rfl⟩ := retry_done h
        refine .inr ⟨c, text, htext, ?_, hlast, rfl⟩
        rw [hpattern]
        rintro q ⟨⟩
        exact ⟨hfits.1, hfits.2, hstar⟩
  · rename_i c text htext hpattern
    obtain ⟨hlast, rfl⟩ := retry_done h
    refine .inr ⟨c, text, htext, ?_, hlast, rfl⟩
    rw [hpattern]
    exact nofun

-- ---------------------------------------------------------------------------
-- The loop returns
-- ---------------------------------------------------------------------------

/-- The pattern is at most `size` long, and what is left lies behind the last star. -/
def WildcardCursor.Bounded (size : Nat) (s : WildcardCursor) : Prop :=
  match s.star with
  | none => s.pattern.length ≤ size
  | some (pattern, mark) =>
    s.pattern.length ≤ pattern.length ∧ s.text.length ≤ mark.length ∧ pattern.length ≤ size

/-- The pattern behind the last star, the text it was tried on, and what is left of
the pattern. -/
def WildcardCursor.size (size : Nat) (s : WildcardCursor) : Nat × Nat × Nat :=
  match s.star with
  | none => (size + 1, 0, s.pattern.length)
  | some (pattern, mark) => (pattern.length, mark.length, s.pattern.length)

def WildcardCursor.Descends (size : Nat) (s' s : WildcardCursor) : Prop :=
  Prod.Lex (· < ·) (Prod.Lex (· < ·) (· < ·)) (s'.size size) (s.size size)

theorem WildcardCursor.step_descends {size : Nat} (hs : s.Bounded size) (h : s.step = .next s') :
    s'.Bounded size ∧ s'.Descends size s := by
  obtain ⟨c, text, p, pattern, htext, hpattern, -, rfl⟩ | ⟨c, text, pattern, htext, hpattern, -, rfl⟩ |
    ⟨c, text, pattern, mark, htext, -, hlast, rfl⟩ := step_next h
  · rcases hlast : s.star with _ | ⟨behind, mark⟩
    · simp only [Bounded, hlast, hpattern, List.length_cons] at hs ⊢
      refine ⟨by omega, ?_⟩
      simp only [Descends, WildcardCursor.size, hlast, hpattern, List.length_cons]
      exact .right _ (.right _ (Nat.lt_succ_self _))
    · simp only [Bounded, hlast, hpattern, htext, List.length_cons] at hs ⊢
      refine ⟨by omega, ?_⟩
      simp only [Descends, WildcardCursor.size, hlast, hpattern, List.length_cons]
      exact .right _ (.right _ (Nat.lt_succ_self _))
  · rcases hlast : s.star with _ | ⟨behind, mark⟩
    · simp only [Bounded, hlast, hpattern, List.length_cons] at hs ⊢
      refine ⟨⟨Nat.le_refl _, Nat.le_refl _, by omega⟩, ?_⟩
      simp only [Descends, WildcardCursor.size, hlast]
      exact .left _ _ (by omega)
    · simp only [Bounded, hlast, hpattern, List.length_cons] at hs ⊢
      refine ⟨⟨Nat.le_refl _, Nat.le_refl _, by omega⟩, ?_⟩
      simp only [Descends, WildcardCursor.size, hlast]
      exact .left _ _ (by omega)
  · simp only [Bounded, hlast, htext, List.length_cons] at hs ⊢
    refine ⟨⟨Nat.le_refl _, Nat.le_refl _, hs.2.2⟩, ?_⟩
    simp only [Descends, WildcardCursor.size, hlast, List.length_tail]
    exact .right _ (.left _ _ (by omega))

theorem wildcardMatch_returns (text pattern : List Char) : ∃ result, WildcardMatch text pattern result := by
  have hwf : WellFounded (WildcardCursor.Descends pattern.length) :=
    InvImage.wf _ (Prod.lex Nat.lt_wfRel (Prod.lex Nat.lt_wfRel Nat.lt_wfRel)).wf
  exact ends_of_descends hwf (fun _ _ hs h => WildcardCursor.step_descends hs h) (Nat.le_refl _)

theorem exists_turns (text pattern : List Char) :
    ∃ turns, (run WildcardCursor.step turns { text, pattern }).isSome = true := by
  obtain ⟨result, hresult⟩ := wildcardMatch_returns text pattern
  obtain ⟨turns, hturns⟩ := hresult.exists_run
  exact ⟨turns, by rw [hturns]; rfl⟩

/-- The value `wildcard_match` returns. -/
def wildcardMatch (text pattern : List Char) : Bool :=
  (run WildcardCursor.step (Nat.find (exists_turns text pattern)) { text, pattern }).get
    (Nat.find_spec (exists_turns text pattern))

theorem wildcardMatch_spec (text pattern : List Char) : WildcardMatch text pattern (wildcardMatch text pattern) :=
  ends_of_run (Option.some_get _).symm

-- ---------------------------------------------------------------------------
-- Stars that do not meet
-- ---------------------------------------------------------------------------

/-- No front of the pattern up to a star matches a front of the text up to a star. -/
def StarsApart (text pattern : List Char) : Prop :=
  ∀ front behind before after, pattern = front ++ '*' :: behind → text = before ++ '*' :: after → ¬Glob front before

/-- The last star may take at least one more character than it was tried with. -/
def WildcardCursor.StarLater (s : WildcardCursor) : Prop :=
  ∃ pattern mark, s.star = some (pattern, mark) ∧ ∃ k, Glob pattern (mark.drop (k + 1))

/-- The fronts that are passed match, what is left decides the match, and since the last
star the pattern was walked without passing another. -/
structure WildcardCursor.Decides (text pattern : List Char) (s : WildcardCursor) : Prop where
  reached : ∃ front before, pattern = front ++ s.pattern ∧ text = before ++ s.text ∧ Glob front before
  marked : ∀ behind mark, s.star = some (behind, mark) →
    ∃ front before skipped, pattern = front ++ '*' :: behind ∧ text = before ++ (skipped ++ mark) ∧ Glob front before
  glob_iff : Glob pattern text ↔ Glob s.pattern s.text ∨ s.StarLater
  walked : ∀ behind mark, s.star = some (behind, mark) →
    ∃ front passed, behind = front ++ s.pattern ∧ mark = passed ++ s.text ∧ front.length = passed.length ∧ '*' ∉ front

variable {text pattern : List Char}

/-- Whatever the last star may still take leaves, at a further star, a match of that
one: it is the one to remember. -/
theorem WildcardCursor.Decides.later_star (hs : s.Decides text pattern) {behind : List Char}
    (hpattern : s.pattern = '*' :: behind) (hlater : s.StarLater) : ∃ k, Glob behind (s.text.drop (k + 1)) := by
  obtain ⟨last, mark, hlast, k, hglob⟩ := hlater
  obtain ⟨front, passed, rfl, rfl, hlength, hfront⟩ := hs.walked last mark hlast
  obtain ⟨-, hrest⟩ := hglob.drop_front hfront
  rw [hpattern, glob_star_iff] at hrest
  obtain ⟨j, hrest⟩ := hrest
  refine ⟨k + j, ?_⟩
  have hdrop : ((passed ++ s.text).drop (k + 1)).drop front.length = s.text.drop (k + 1) := by
    rw [List.drop_drop, hlength, Nat.add_comm, List.drop_append, Nat.add_sub_cancel_left]
    simp
  rw [hdrop, List.drop_drop] at hrest
  rwa [Nat.add_right_comm] at hrest

theorem WildcardCursor.Decides.turn (hapart : StarsApart text pattern) (hs : s.Decides text pattern)
    (h : s.step = .next s') : s'.Decides text pattern := by
  have hglob := hs.glob_iff
  obtain ⟨front, before, hfront, hbefore, hreached⟩ := hs.reached
  obtain ⟨c, rest, p, pattern', htext, hpattern, hfits, rfl⟩ | ⟨c, rest, behind, htext, hpattern, hc, rfl⟩ |
    ⟨c, rest, behind, mark, htext, hstuck, hlast, rfl⟩ := step_next h
  · rw [hpattern] at hfront
    rw [htext] at hbefore
    have hp : p ≠ '*' := by
      rintro rfl
      rcases hfits with hfits | rfl
      · cases hfits
      · exact hapart _ _ _ _ hfront hbefore hreached
    rw [htext, hpattern, glob_cons_iff hp] at hglob
    refine ⟨⟨front ++ [p], before ++ [c], by simp [hfront], by simp [hbefore], ?_⟩, hs.marked, ?_, ?_⟩
    · exact hreached.append ((glob_cons_iff hp).mpr ⟨hfits, .nil⟩)
    · rw [hglob]
      simp only [hfits, true_and]
      rfl
    · intro behind mark hlast
      obtain ⟨front, passed, hbehind, hmark, hlength, hstarless⟩ := hs.walked behind mark hlast
      refine ⟨front ++ [p], passed ++ [c], by simp [hbehind, hpattern], by simp [hmark, htext], by simp [hlength], ?_⟩
      simp [hstarless, Ne.symm hp]
  · rw [hpattern] at hfront
    refine ⟨⟨front ++ ['*'], before, by simp [hfront], hbefore, ?_⟩, ?_, ?_, ?_⟩
    · simpa using hreached.append (.star [] .nil)
    · rintro _ _ ⟨⟩
      exact ⟨front, before, [], hfront, hbefore, hreached⟩
    · rw [hglob, hpattern, glob_star_iff]
      constructor
      · rintro (⟨_ | k, hk⟩ | hlater)
        · exact .inl hk
        · exact .inr ⟨behind, s.text, rfl, k, hk⟩
        · exact .inr ⟨behind, s.text, rfl, hs.later_star hpattern hlater⟩
      · rintro (hk | ⟨_, _, ⟨⟩, k, hk⟩)
        · exact .inl ⟨0, hk⟩
        · exact .inl ⟨k + 1, hk⟩
    · rintro _ _ ⟨⟩
      exact ⟨[], [], rfl, rfl, rfl, by simp⟩
  · obtain ⟨front, before, skipped, hfront, hbefore, hreached⟩ := hs.marked behind mark hlast
    have hskipped : text = before ++ ((skipped ++ mark.take 1) ++ mark.tail) := by
      rw [hbefore, List.append_assoc, ← List.drop_one, List.take_append_drop]
    refine ⟨⟨front ++ ['*'], before ++ (skipped ++ mark.take 1), by simp [hfront], hskipped.trans (List.append_assoc _ _ _).symm, ?_⟩,
      ?_, ?_, ?_⟩
    · simpa using hreached.append (.star (skipped ++ mark.take 1) .nil)
    · rintro _ _ ⟨⟩
      exact ⟨front, before, skipped ++ mark.take 1, hfront, hskipped, hreached⟩
    · rw [hglob, htext]
      constructor
      · rintro (hstay | ⟨behind', mark', hlast', k, hk⟩)
        · exact absurd hstay hstuck.not_glob
        · obtain ⟨rfl, rfl⟩ := Prod.mk.inj (Option.some.inj (hlast.symm.trans hlast'))
          rw [← List.drop_tail] at hk
          cases k with
          | zero => exact .inl hk
          | succ k => exact .inr ⟨behind, mark.tail, rfl, k, hk⟩
      · rintro (hk | ⟨_, _, ⟨⟩, k, hk⟩)
        · exact .inr ⟨behind, mark, hlast, 0, by rwa [← List.drop_tail]⟩
        · exact .inr ⟨behind, mark, hlast, k + 1, by rwa [← List.drop_tail]⟩
    · rintro _ _ ⟨⟩
      exact ⟨[], [], rfl, rfl, rfl, by simp⟩

theorem WildcardCursor.Decides.returns (hs : s.Decides text pattern) (h : s.step = .done result) :
    result = true ↔ Glob pattern text := by
  rw [hs.glob_iff]
  obtain ⟨htext, rfl⟩ | ⟨c, rest, htext, hstuck, hlast, rfl⟩ := step_done h
  · rw [htext, glob_nil_right]
    refine ⟨.inl, ?_⟩
    rintro (hstay | ⟨behind, mark, hlast, k, hk⟩)
    · exact hstay
    -- nothing is left for the star to take but what the pattern needs
    · obtain ⟨front, passed, rfl, rfl, hlength, hfront⟩ := hs.walked behind mark hlast
      obtain ⟨hlong, hrest⟩ := hk.drop_front hfront
      rw [htext, List.append_nil] at hrest hlong
      rw [← glob_nil_right]
      have hnil : (passed.drop (k + 1)).drop front.length = [] := by simp [hlength]
      rwa [hnil] at hrest
  · rw [htext]
    refine ⟨fun hfalse => (by cases hfalse), ?_⟩
    rintro (hstay | ⟨behind, mark, hsome, -⟩)
    · exact absurd hstay hstuck.not_glob
    · rw [hlast] at hsome
      cases hsome

end

end Gentest.Runner
