import ShiftReduce.ParseStack
import ShiftReduce.Proofs.Checked

/-!
# Stacks, top first

A stack keeps its items bottom first. As a list with the top in front it is what
an automaton works on: pushing is `::`, and dropping items is `List.drop`.
-/

namespace ShiftReduce

variable {α V : Type}

namespace Stack

def topDown (s : Stack α) : List α := s.items.toList.reverse

@[simp] theorem length_topDown (s : Stack α) : s.topDown.length = s.size := by
  simp [topDown, size]

@[simp] theorem topDown_push (s : Stack α) (x : α) : (s.push x).topDown = x :: s.topDown := by
  simp [topDown, items_push]

@[simp] theorem topDown_copyFrom (s : Stack α) (items : Array α) :
    (s.copyFrom items).topDown = items.toList.reverse := by
  rw [topDown, items_copyFrom]

theorem top?_eq_head? (s : Stack α) : s.top? = s.topDown.head? := by
  simp [top?, topDown, Array.getLast?_toList]

/-- Truncating to the lowest entries drops the others. -/
theorem topDown_truncate (s : Stack α) (depth : Nat) :
    (s.truncate depth).topDown = s.topDown.drop (s.size - depth) := by
  rw [topDown, items_truncate, topDown, Array.take_eq_extract, Array.toList_extract,
    List.extract_eq_take_drop, size]
  simp only [List.drop_zero, Nat.sub_zero, ← Array.length_toList]
  rw [List.drop_reverse]
  rcases Nat.le_total depth s.items.toList.length with hle | hle
  · rw [Nat.sub_sub_self hle]
  · rw [Nat.sub_eq_zero_of_le hle, Nat.sub_zero, List.take_of_length_le hle, List.take_length]

/-- The item at an index from the bottom is found by dropping those above it. -/
theorem get?_eq_head? (s : Stack α) {index : Nat} (h : index < s.size) :
    s.get? index = (s.topDown.drop (s.size - (index + 1))).head? := by
  rw [← topDown_truncate, ← top?_eq_head?, top?, items_truncate, get?]
  have hsize : (s.items.take (index + 1)).size = index + 1 := by
    simp only [Array.take_eq_extract, Array.size_extract]
    simp only [size] at h
    omega
  simp only [size] at h
  rw [Array.back?, hsize, Array.take_eq_extract, Array.getElem?_extract, if_pos (by omega)]
  simp

theorem topDown_setTop (s : Stack α) (x y : α) {below : List α} (h : s.topDown = y :: below) :
    (s.setTop x).topDown = x :: below := by
  have hitems : s.items.toList = below.reverse ++ [y] := by
    have := congrArg List.reverse h
    simpa [topDown] using this
  have hsize : s.items.size = below.length + 1 := by
    rw [← Array.length_toList, hitems]
    simp
  rw [topDown, items_setTop, Array.toList_setIfInBounds, hitems, hsize, Nat.add_sub_cancel]
  rw [show below.length = below.reverse.length by simp, List.set_append_right _ _ (Nat.le_refl _)]
  simp

end Stack

namespace ParseStack

def topDown (s : ParseStack V) : List (Entry V) := s.entries.topDown

def column (s : ParseStack V) : List StateId := s.topDown.map Entry.state

@[simp] theorem length_column (s : ParseStack V) : s.column.length = s.depth := by
  simp [column, topDown, depth]

theorem column_eq_reverse_states (s : ParseStack V) : s.column = s.states.toList.reverse := by
  simp [column, topDown, Stack.topDown, states]

@[simp] theorem topDown_push (s : ParseStack V) (state : StateId) (symbol : Symbol V) :
    (s.push state symbol).topDown = ⟨state, symbol⟩ :: s.topDown := by
  rw [topDown, push, Stack.topDown_push, topDown]

@[simp] theorem column_push (s : ParseStack V) (state : StateId) (symbol : Symbol V) :
    (s.push state symbol).column = state :: s.column := by
  rw [column, topDown_push, List.map_cons, column]

theorem topDown_truncate (s : ParseStack V) (depth : Nat) :
    (s.truncate depth).topDown = s.topDown.drop (s.depth - depth) := by
  rw [topDown, truncate, Stack.topDown_truncate, topDown, ParseStack.depth]

theorem column_truncate (s : ParseStack V) (depth : Nat) :
    (s.truncate depth).column = s.column.drop (s.depth - depth) := by
  rw [column, topDown_truncate, List.map_drop, column]

theorem top_eq_ok {s : ParseStack V} {entry : Entry V} :
    s.top = .ok entry ↔ s.topDown.head? = some entry := by
  rw [top, topDown, ← Stack.top?_eq_head?]
  cases s.entries.top? with
  | none => simp
  | some found => simp

theorem topState_eq_ok {s : ParseStack V} {state : StateId} :
    s.topState = .ok state ↔ s.column.head? = some state := by
  rw [topState, map_eq_ok, column, List.head?_map, Option.map_eq_some_iff]
  simp only [top_eq_ok]

theorem modifyTopSymbol_eq_ok {s s' : ParseStack V} {f : Symbol V → Symbol V} {entry : Entry V}
    {below : List (Entry V)} (h : s.modifyTopSymbol f = .ok s') (hs : s.topDown = entry :: below) :
    s'.topDown = { entry with symbol := f entry.symbol } :: below := by
  obtain ⟨found, htop, h⟩ := bind_eq_ok.mp h
  rw [top_eq_ok, hs, List.head?_cons, Option.some_inj] at htop
  subst htop
  cases h
  exact Stack.topDown_setTop _ _ _ hs

theorem topSymbol_eq_ok {s : ParseStack V} {symbol : Symbol V} :
    s.topSymbol = .ok symbol ↔ ∃ entry, s.topDown.head? = some entry ∧ entry.symbol = symbol := by
  rw [topSymbol, map_eq_ok]
  simp only [top_eq_ok]

/-! ## Symbols, bottom first -/

variable {s : ParseStack V} {index : Nat} {x : Symbol V}

theorem toList_symbols (s : ParseStack V) :
    s.symbols.toList = (s.topDown.map Entry.symbol).reverse := by
  simp [symbols, topDown, Stack.topDown]

theorem toList_symbols_push (s : ParseStack V) (state : StateId) (x : Symbol V) :
    (s.push state x).symbols.toList = s.symbols.toList ++ [x] := by
  rw [symbols_push, Array.toList_push]

theorem toList_symbols_truncate (s : ParseStack V) (depth : Nat) :
    (s.truncate depth).symbols.toList = s.symbols.toList.take depth := by
  simp [symbols, truncate, Stack.items_truncate, List.extract_eq_take_drop]

theorem symbol_eq_ok : s.symbol index = .ok x ↔ s.symbols.toList[index]? = some x := by
  unfold symbol
  rw [Array.getElem?_toList, symbols, Array.getElem?_map, Stack.get?]
  cases s.entries.items[index]? with
  | none => simp
  | some entry => simp

theorem symbolsFrom_eq_ok {symbols : Array (Symbol V)} (h : s.symbolsFrom index = .ok symbols) :
    symbols = (s.symbols.toList.drop index).toArray := by
  obtain ⟨entries, hslice, rfl⟩ := map_eq_ok.mp h
  unfold Stack.sliceFrom at hslice
  split at hslice
  · cases hslice
    apply Array.toList_inj.mp
    rw [Array.toList_map, Array.toList_extract, List.extract_eq_take_drop,
      List.take_of_length_le (by simp), List.map_drop, ParseStack.symbols, Array.toList_map]
  · cases hslice

theorem getLast?_symbols {entry : Entry V} (h : s.top = .ok entry) :
    s.symbols.toList.getLast? = some entry.symbol := by
  rw [top_eq_ok] at h
  rw [toList_symbols, List.getLast?_reverse, List.head?_map, h]
  rfl

end ParseStack

end ShiftReduce
