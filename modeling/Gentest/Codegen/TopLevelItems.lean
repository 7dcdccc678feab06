import Gentest.Codegen.AttributeRoundTrip
import Gentest.Lib.Pieces

/-!
# Three comma splitters

The attribute parser, `parameters_pack` and the template packs each split a text at
its top-level commas with a state machine of their own; only the helpers they look
around with, down to the search for a closing `>`, are the same text three times.
What they have in common is `topLevelItems`: the pieces between the commas that
stand outside of literals and brackets, blank ones too.
-/

namespace Gentest.Codegen

open Scanner

-- ---------------------------------------------------------------------------
-- The tuples of `parameters_pack`
-- ---------------------------------------------------------------------------

/-- The white space that `parse_tuple` cuts off its items. -/
def isTupleSpace (ch : Char) : Bool := ch == ' ' || ch == '\t' || ch == '\n' || ch == '\r'

structure TupleScan where
  out : List (List Char) := []
  cur : List Char := []
  depth : Nat := 0
  angleDepth : Nat := 0
  inStr : Bool := false
  inChar : Bool := false
  esc : Bool := false

/-- The same look-around as for arguments, on the item so far. -/
def shouldOpenAngle (current before rest : List Char) : Bool :=
  let prev := previousNonSpace current
  let next := nextNonSpace rest
  prev != '\x00' && isLikelyTemplateLeft prev && next != '\x00' && next != '<' && next != '=' &&
    isLikelyTemplateRight next && hasMatchingAngleClose ('<' :: before) rest

def trimTuple (item : List Char) : List Char :=
  ((item.dropWhile isTupleSpace).reverse.dropWhile isTupleSpace).reverse

def TupleScan.push (st : TupleScan) : TupleScan :=
  let item := trimTuple st.cur
  { st with out := if item = [] then st.out else st.out ++ [item], cur := [] }

def TupleScan.step (st : TupleScan) (before : List Char) (ch : Char) (rest : List Char) :
    Except Empty TupleScan :=
  let read := { st with cur := st.cur ++ [ch] }
  .ok
    (if st.inStr then
      if st.esc then { read with esc := false }
      else if ch = '\\' then { read with esc := true }
      else if ch = '"' then { read with inStr := false }
      else read
    else if st.inChar then
      if st.esc then { read with esc := false }
      else if ch = '\\' then { read with esc := true }
      else if ch = '\'' then { read with inChar := false }
      else read
    else if ch = '"' then { read with inStr := true }
    else if ch = '\'' then
      if shouldEnterCharLiteral before rest then { read with inChar := true } else read
    else if isOpening ch then { read with depth := st.depth + 1 }
    else if isClosing ch then { read with depth := st.depth - 1 }
    else if ch = '<' then
      if shouldOpenAngle st.cur before rest then { read with angleDepth := st.angleDepth + 1 } else read
    else if ch = '>' then { read with angleDepth := st.angleDepth - 1 }
    else if ch = ',' ∧ st.depth = 0 ∧ st.angleDepth = 0 then st.push
    else read)

/-- Outer parentheses are dropped by the look of the first and the last byte. -/
def stripOuterParens (text : List Char) : List Char :=
  if text.head? = some '(' ∧ text.getLast? = some ')' then (text.drop 1).dropLast else text

def parseTuple (text : List Char) : List (List Char) :=
  match scan TupleScan.step {} [] (stripOuterParens text) with
  | .error r => nomatch r
  | .ok st => st.push.out

-- ---------------------------------------------------------------------------
-- The rows of template packs
-- ---------------------------------------------------------------------------

structure SplitTopLevelItemsResult where
  parts : List (List Char) := []
  hadEmptyItem : Bool := false
  deriving DecidableEq, Repr

structure ItemScan where
  result : SplitTopLevelItemsResult := {}
  current : List Char := []
  depth : Nat := 0
  angleDepth : Nat := 0
  quoted : Quoted := none

def ItemScan.comma (st : ItemScan) : ItemScan :=
  let token := trimView st.current
  { st with
    result := if token = [] then { st.result with hadEmptyItem := true }
      else { st.result with parts := st.result.parts ++ [token] }
    current := [] }

def ItemScan.step (st : ItemScan) (before : List Char) (ch : Char) (rest : List Char) : Except Empty ItemScan :=
  let read := { st with current := st.current ++ [ch] }
  match st.quoted with
  | some (quote, escape) => .ok { read with quoted := nextQuoted quote escape ch }
  | none =>
    .ok
      (match ch with
      | '"' => { read with quoted := some ('"', false) }
      | '\'' => if shouldEnterCharLiteral before rest then { read with quoted := some ('\'', false) } else read
      | '(' | '[' | '\x7b' => { read with depth := st.depth + 1 }
      | ')' | ']' | '\x7d' => { read with depth := st.depth - 1 }
      | '<' => if shouldOpenAngle st.current before rest then { read with angleDepth := st.angleDepth + 1 } else read
      | '>' => { read with angleDepth := st.angleDepth - 1 }
      | ',' => if st.depth = 0 ∧ st.angleDepth = 0 then st.comma else read
      | _ => read)

def splitTopLevelItemsResult (text : List Char) : SplitTopLevelItemsResult :=
  match scan ItemScan.step {} [] text with
  | .error r => nomatch r
  | .ok st =>
    let token := trimView st.current
    if token = [] then
      if text.getLast? = some ',' then { st.result with hadEmptyItem := true } else st.result
    else { st.result with parts := st.result.parts ++ [token] }

def splitTopLevelItems (text : List Char) : List (List Char) := (splitTopLevelItemsResult text).parts

-- ---------------------------------------------------------------------------
-- The pieces between top-level commas
-- ---------------------------------------------------------------------------

structure Nesting where
  depth : Nat := 0
  angleDepth : Nat := 0
  quoted : Quoted := none
  deriving DecidableEq

def Nesting.step : Pieces.Step Nesting Char := fun n before current ch rest =>
  match n.quoted with
  | some (quote, escape) => some { n with quoted := nextQuoted quote escape ch }
  | none =>
    if ch = '"' then some { n with quoted := some ('"', false) }
    else if ch = '\'' then
      some (if shouldEnterCharLiteral before rest then { n with quoted := some ('\'', false) } else n)
    else if isOpening ch then some { n with depth := n.depth + 1 }
    else if isClosing ch then some { n with depth := n.depth - 1 }
    else if ch = '<' then
      some (if shouldOpenAngle current before rest then { n with angleDepth := n.angleDepth + 1 } else n)
    else if ch = '>' then some { n with angleDepth := n.angleDepth - 1 }
    else if ch = ',' ∧ n.depth = 0 ∧ n.angleDepth = 0 then none
    else some n

def itemsFrom (n : Nesting) (before current text : List Char) : List (List Char) :=
  Pieces.cut Nesting.step {} n before current text

/-- The pieces between the top-level commas, as they stand. -/
def topLevelItems (text : List Char) : List (List Char) := itemsFrom {} [] [] text

/-- The items that are not blank, without the white space at their ends. -/
def keptItems (trim : List Char → List Char) (items : List (List Char)) : List (List Char) :=
  (items.map trim).filter fun item => item ≠ []

theorem keptItems_append (trim : List Char → List Char) (front : List (List Char)) (last : List Char) :
    keptItems trim (front ++ [last]) =
      if trim last = [] then keptItems trim front else keptItems trim front ++ [trim last] := by
  by_cases hlast : trim last = []
  · simp [keptItems, hlast]
  · simp [keptItems, hlast]

theorem keptItems_eq_map {trim : List Char → List Char} {items : List (List Char)}
    (h : ∀ item ∈ items, trim item ≠ []) : keptItems trim items = items.map trim := by
  refine List.filter_eq_self.mpr fun item hitem => ?_
  obtain ⟨whole, hwhole, rfl⟩ := List.mem_map.mp hitem
  simpa using h whole hwhole

theorem length_keptItems (trim : List Char → List Char) (items : List (List Char)) :
    (keptItems trim items).length = items.countP fun item => trim item ≠ [] := by
  rw [keptItems, ← List.countP_eq_length_filter, List.countP_map]
  rfl

theorem keptItems_all {trim : List Char → List Char} {items : List (List Char)}
    (h : (keptItems trim items).length = items.length) : keptItems trim items = items.map trim := by
  refine List.filter_eq_self.mpr (List.length_filter_eq_length_iff.mp ?_)
  simpa [keptItems] using h

theorem keptItems_cons (trim : List Char → List Char) (item : List Char) (items : List (List Char)) :
    keptItems trim (item :: items) = keptItems trim [item] ++ keptItems trim items := by
  rw [keptItems, keptItems, keptItems, ← List.filter_append]
  rfl

-- ---------------------------------------------------------------------------
-- Each splitter cuts there
-- ---------------------------------------------------------------------------

def SplitScan.nesting (st : SplitScan) : Nesting := ⟨st.depth, st.angleDepth, st.quoted⟩

theorem SplitScan.step_eq (st : SplitScan) (before : List Char) (ch : Char) (rest : List Char) :
    SplitScan.step st before ch rest =
      .ok (match Nesting.step st.nesting before st.current ch rest with
        | none => st.pushToken
        | some n => { st with
            current := st.current ++ [ch], depth := n.depth, angleDepth := n.angleDepth, quoted := n.quoted }) := by
  unfold SplitScan.step Nesting.step SplitScan.nesting
  cases st.quoted with
  | some q => rfl
  | none =>
    have hangle : st.shouldOpenAngle before rest = Codegen.shouldOpenAngle st.current before rest := rfl
    simp only [hangle]
    split_ifs
    all_goals rfl

theorem Nesting.eq_of_cut {n : Nesting} {before current rest : List Char} {ch : Char}
    (h : Nesting.step n before current ch rest = none) : n = {} := by
  obtain ⟨depth, angleDepth, quoted⟩ := n
  unfold Nesting.step at h
  cases quoted with
  | some q => cases h
  | none =>
    simp only at h
    split_ifs at h with h1 h2 h3 h4 h5 h6 h7
    obtain ⟨-, rfl, rfl⟩ := h7
    rfl

theorem SplitScan.cuts : Pieces.Cuts SplitScan.step Nesting.step {} fun st n current done =>
    st.nesting = n ∧ st.current = current ∧ st.parts = (keptItems trimView done).map unquote where
  cuts st n before current ch rest done := by
    rintro ⟨rfl, rfl, hparts⟩ hstep
    refine ⟨st.pushToken, by rw [SplitScan.step_eq, hstep], Nesting.eq_of_cut hstep, rfl, ?_⟩
    rw [keptItems_append, SplitScan.pushToken, hparts]
    split_ifs with hblank
    · rfl
    · simp
  goesOn st n n' before current ch rest done := by
    rintro ⟨rfl, rfl, hparts⟩ hstep
    refine ⟨{ st with
      current := st.current ++ [ch], depth := n'.depth, angleDepth := n'.angleDepth, quoted := n'.quoted },
      ?_, rfl, rfl, hparts⟩
    rw [SplitScan.step_eq, hstep]

theorem splitArguments_eq (text : List Char) :
    splitArguments text = (keptItems trimView (topLevelItems text)).map unquote := by
  obtain ⟨st, n, last, front, hscan, ⟨-, rfl, hparts⟩, hpieces⟩ :=
    SplitScan.cuts.scan_all {} text ⟨rfl, rfl, rfl⟩
  have hitems : topLevelItems text = front ++ [st.current] := hpieces.symm
  rw [splitArguments, hscan, hitems, keptItems_append]
  simp only [SplitScan.pushToken, hparts]
  split_ifs with hblank
  · rfl
  · simp

def ItemScan.nesting (st : ItemScan) : Nesting := ⟨st.depth, st.angleDepth, st.quoted⟩

theorem ItemScan.step_eq (st : ItemScan) (before : List Char) (ch : Char) (rest : List Char) :
    ItemScan.step st before ch rest =
      .ok (match Nesting.step st.nesting before st.current ch rest with
        | none => st.comma
        | some n => { st with
            current := st.current ++ [ch], depth := n.depth, angleDepth := n.angleDepth, quoted := n.quoted }) := by
  unfold ItemScan.step Nesting.step ItemScan.nesting
  cases st.quoted with
  | some q => rfl
  | none =>
    simp only
    split
    case h_12 hquote hchar hround hsquare hcurly hround' hsquare' hcurly' hless hgreater hcomma =>
      have hopening : isOpening ch = false := by simpa [isOpening] using ⟨⟨hround, hsquare⟩, hcurly⟩
      have hclosing : isClosing ch = false := by simpa [isClosing] using ⟨⟨hround', hsquare'⟩, hcurly'⟩
      simp only [if_neg hquote, if_neg hchar, hopening, hclosing, if_neg hless, if_neg hgreater,
        if_neg fun h : ch = ',' ∧ _ => hcomma h.1, Bool.false_eq_true, ↓reduceIte]
    all_goals simp [isOpening, isClosing]
    all_goals split_ifs
    all_goals rfl

theorem ItemScan.cuts : Pieces.Cuts ItemScan.step Nesting.step {} fun st n current done =>
    st.nesting = n ∧ st.current = current ∧ st.result.parts = keptItems trimView done ∧
      st.result.hadEmptyItem = done.any fun item => trimView item = [] where
  cuts st n before current ch rest done := by
    rintro ⟨rfl, rfl, hparts, hempty⟩ hstep
    refine ⟨st.comma, by rw [ItemScan.step_eq, hstep], Nesting.eq_of_cut hstep, rfl, ?_⟩
    rw [keptItems_append, ItemScan.comma, List.any_append]
    by_cases hblank : trimView st.current = []
    · simp [hblank, hparts]
    · simp [hblank, hparts, hempty]
  goesOn st n n' before current ch rest done := by
    rintro ⟨rfl, rfl, hparts, hempty⟩ hstep
    refine ⟨{ st with
      current := st.current ++ [ch], depth := n'.depth, angleDepth := n'.angleDepth, quoted := n'.quoted },
      ?_, rfl, rfl, hparts, hempty⟩
    rw [ItemScan.step_eq, hstep]

/-- A blank last item is noticed only when the text ends with its comma. -/
theorem splitTopLevelItemsResult_eq (text : List Char) :
    splitTopLevelItemsResult text =
      { parts := keptItems trimView (topLevelItems text)
        hadEmptyItem := (topLevelItems text).dropLast.any (fun item => trimView item = []) ||
          ((topLevelItems text).getLast?.any (fun item => trimView item = []) && text.getLast? == some ',') } := by
  obtain ⟨st, n, last, front, hscan, ⟨-, rfl, hparts, hempty⟩, hpieces⟩ :=
    ItemScan.cuts.scan_all {} text ⟨rfl, rfl, rfl, rfl⟩
  have hitems : topLevelItems text = front ++ [st.current] := hpieces.symm
  rw [splitTopLevelItemsResult, hscan, hitems, keptItems_append, List.dropLast_concat, List.getLast?_concat]
  by_cases hblank : trimView st.current = []
  · by_cases hcomma : text.getLast? = some ','
    · simp [hblank, hcomma, hparts]
    · simp [hblank, hcomma, beq_false_of_ne hcomma, ← hparts, ← hempty]
  · simp [hblank, ← hparts, ← hempty]

def TupleScan.nesting (st : TupleScan) : Nesting :=
  ⟨st.depth, st.angleDepth, if st.inStr then some ('"', st.esc) else if st.inChar then some ('\'', st.esc) else none⟩

/-- At most one literal at a time, and escapes inside of literals only. -/
def TupleScan.WellFormed (st : TupleScan) : Prop :=
  ¬(st.inStr ∧ st.inChar) ∧ (st.esc → st.inStr ∨ st.inChar)

theorem TupleScan.step_cases {st : TupleScan} (h : st.WellFormed) (before : List Char) (ch : Char)
    (rest : List Char) :
    ∃ st', TupleScan.step st before ch rest = .ok st' ∧
      match Nesting.step st.nesting before st.cur ch rest with
      | none => st' = st.push
      | some n => st'.nesting = n ∧ st'.cur = st.cur ++ [ch] ∧ st'.out = st.out ∧ st'.WellFormed := by
  obtain ⟨out, cur, depth, angleDepth, inStr, inChar, esc⟩ := st
  obtain ⟨hapart, hinside⟩ := h
  refine ⟨_, rfl, ?_⟩
  cases inStr with
  | true =>
    obtain rfl : inChar = false := by simpa using hapart
    simp only [Nesting.step, TupleScan.nesting, nextQuoted, literalStep, ↓reduceIte]
    cases esc with
    | true => simp [TupleScan.WellFormed]
    | false =>
      by_cases hmark : ch = '\\'
      · simp [TupleScan.WellFormed, hmark]
      · by_cases hquote : ch = '"'
        · simp [TupleScan.WellFormed, hquote]
        · simp [TupleScan.WellFormed, hmark, hquote]
  | false =>
    cases inChar with
    | true =>
      simp only [Nesting.step, TupleScan.nesting, nextQuoted, literalStep, ↓reduceIte, Bool.false_eq_true]
      cases esc with
      | true => simp [TupleScan.WellFormed]
      | false =>
        by_cases hmark : ch = '\\'
        · simp [TupleScan.WellFormed, hmark]
        · by_cases hquote : ch = '\''
          · simp [TupleScan.WellFormed, hquote]
          · simp [TupleScan.WellFormed, hmark, hquote]
    | false =>
      obtain rfl : esc = false := by simpa using hinside
      simp only [Nesting.step, TupleScan.nesting, ↓reduceIte, Bool.false_eq_true]
      by_cases hquote : ch = '"'
      · simp [TupleScan.WellFormed, hquote]
      · by_cases hchar : ch = '\''
        · simp only [if_neg hquote, if_pos hchar]
          split
          all_goals simp [TupleScan.WellFormed]
        · simp only [if_neg hquote, if_neg hchar]
          split_ifs
          any_goals contradiction
          all_goals simp [TupleScan.WellFormed]

theorem TupleScan.cuts : Pieces.Cuts TupleScan.step Nesting.step {} fun st n current done =>
    st.nesting = n ∧ st.cur = current ∧ st.out = keptItems trimTuple done ∧ st.WellFormed where
  cuts st n before current ch rest done := by
    rintro ⟨rfl, rfl, hout, hwell⟩ hstep
    obtain ⟨st', hst', hcut⟩ := TupleScan.step_cases hwell before ch rest
    rw [hstep] at hcut
    subst hcut
    refine ⟨st.push, hst', Nesting.eq_of_cut hstep, rfl, ?_, hwell⟩
    rw [keptItems_append, TupleScan.push, hout]
  goesOn st n n' before current ch rest done := by
    rintro ⟨rfl, rfl, hout, hwell⟩ hstep
    obtain ⟨st', hst', hon⟩ := TupleScan.step_cases hwell before ch rest
    rw [hstep] at hon
    obtain ⟨hnesting, hcur, hsame, hwell'⟩ := hon
    exact ⟨st', hst', hnesting, hcur, hsame.trans hout, hwell'⟩

theorem parseTuple_eq (text : List Char) :
    parseTuple text = keptItems trimTuple (topLevelItems (stripOuterParens text)) := by
  obtain ⟨st, n, last, front, hscan, ⟨-, rfl, hout, -⟩, hpieces⟩ :=
    TupleScan.cuts.scan_all {} (stripOuterParens text) ⟨rfl, rfl, rfl, ⟨by simp, by simp⟩⟩
  have hitems : topLevelItems (stripOuterParens text) = front ++ [st.cur] := hpieces.symm
  rw [parseTuple, hscan, hitems, keptItems_append]
  simp only [TupleScan.push, hout]

-- ---------------------------------------------------------------------------
-- The splitters agree
-- ---------------------------------------------------------------------------

theorem isTupleSpace_eq {ch : Char} (hline : ch ≠ '\x0b') (hpage : ch ≠ '\x0c') : isTupleSpace ch = isSpace ch := by
  cases hspace : isSpace ch with
  | true =>
    have hcases := isSpace_cases hspace
    simp only [List.mem_cons, List.not_mem_nil, or_false, hline, hpage, false_or] at hcases
    obtain rfl | rfl | rfl | rfl := hcases
    all_goals rfl
  | false =>
    rw [Bool.eq_false_iff]
    intro htuple
    simp only [isTupleSpace, Bool.or_eq_true, beq_iff_eq] at htuple
    obtain ((rfl | rfl) | rfl) | rfl := htuple
    all_goals cases hspace

theorem dropWhile_eq {p q : Char → Bool} {text : List Char} (h : ∀ ch ∈ text, p ch = q ch) :
    text.dropWhile p = text.dropWhile q := by
  induction text with
  | nil => rfl
  | cons ch text ih =>
    obtain ⟨hch, htext⟩ := List.forall_mem_cons.mp h
    simp only [List.dropWhile_cons, hch, ih htext]

theorem trimTuple_eq {text : List Char} (h : '\x0b' ∉ text ∧ '\x0c' ∉ text) : trimTuple text = trimView text := by
  have hspace : ∀ ch ∈ text, isTupleSpace ch = isSpace ch := fun ch hch =>
    isTupleSpace_eq (fun heq => h.1 (heq ▸ hch)) fun heq => h.2 (heq ▸ hch)
  rw [trimTuple, trimView, dropWhile_eq hspace]
  congr 1
  refine dropWhile_eq fun ch hch => hspace ch ?_
  exact (List.dropWhile_sublist _).subset (List.mem_reverse.mp hch)

theorem stripOuterParens_enclosed (text : List Char) : stripOuterParens ('(' :: text ++ [')']) = text := by
  have hends : ('(' :: text ++ [')']).head? = some '(' ∧ ('(' :: text ++ [')']).getLast? = some ')' :=
    ⟨rfl, List.getLast?_concat ..⟩
  rw [stripOuterParens, if_pos hends]
  simp

/-- An argument list means the same to the three splitters, where it has none of the
white space that only two of them know. -/
theorem comma_splitters_agree (text : List Char) (h : '\x0b' ∉ text ∧ '\x0c' ∉ text) :
    splitArguments text = (splitTopLevelItems text).map unquote ∧
      parseTuple ('(' :: text ++ [')']) = splitTopLevelItems text := by
  have hitems : splitTopLevelItems text = keptItems trimView (topLevelItems text) := by
    rw [splitTopLevelItems, splitTopLevelItemsResult_eq]
  refine ⟨by rw [splitArguments_eq, hitems], ?_⟩
  rw [parseTuple_eq, stripOuterParens_enclosed, hitems, keptItems, keptItems]
  congr 1
  refine List.map_congr_left fun item hitem => trimTuple_eq ⟨fun hmem => ?_, fun hmem => ?_⟩
  · obtain hnone | htext := Pieces.mem_of_mem_cut hitem hmem
    · cases hnone
    · exact h.1 htext
  · obtain hnone | htext := Pieces.mem_of_mem_cut hitem hmem
    · cases hnone
    · exact h.2 htext

/-- The text `f<a,b> , 1'0` with a blank item in front. -/
theorem template_arguments_split_alike :
    splitArguments [' ', ',', 'f', '<', 'a', ',', 'b', '>', ' ', ',', '1', '\'', '0'] =
        (splitTopLevelItems [' ', ',', 'f', '<', 'a', ',', 'b', '>', ' ', ',', '1', '\'', '0']).map unquote ∧
      parseTuple ('(' :: [' ', ',', 'f', '<', 'a', ',', 'b', '>', ' ', ',', '1', '\'', '0'] ++ [')']) =
        splitTopLevelItems [' ', ',', 'f', '<', 'a', ',', 'b', '>', ' ', ',', '1', '\'', '0'] :=
  comma_splitters_agree [' ', ',', 'f', '<', 'a', ',', 'b', '>', ' ', ',', '1', '\'', '0'] (by decide)

end Gentest.Codegen
