import ShiftReduce.Action

/-!
# Codes can be read back

An action whose state is below `2 ^ 15` and not the start state, or whose rule is
declared, is the one that its code stands for. The other way round every code stands
for an action, whatever the number of rules is, and it is the code of that action: the
accepting code takes the place of one reduction, and no code is left without a meaning.

A rule is no more than its word, and every word is a rule.

* `Action.encode_decode` and `Action.decode_encode`: codes and actions.
* `Rule.lhs_pack`, `Rule.length_pack` and `Rule.pack_lhs_length`: rules and words.
* `codes_round_trip`: both of them.
-/

namespace ShiftReduce.Action

/-- Whether an action has a code of its own. -/
def Encodable (ruleCount : Nat) : Action → Prop
  | shift state => 0 < state.toNat ∧ state.toNat < 32768
  | reduce rule => rule.toNat < ruleCount
  | accept => True
  | error => True

theorem toInt_toInt16 {x : UInt16} (h : x.toNat < 32768) : x.toInt16.toInt = x.toNat := by
  show x.toBitVec.toInt = _
  rw [BitVec.toInt_eq_toNat_cond, show x.toBitVec.toNat = x.toNat from rfl, if_pos (by omega)]

theorem toInt_complement {x : UInt16} (h : x.toNat < 32768) :
    (~~~x.toInt16).toInt = -(x.toNat : Int) - 1 := by
  show (~~~x.toBitVec).toInt = _
  rw [BitVec.toInt_eq_toNat_cond, BitVec.toNat_not, show x.toBitVec.toNat = x.toNat from rfl]
  rw [if_neg (by omega)]
  omega

/-- Complements are read as rules, and the complement of the rule count accepts. -/
theorem decode_complement {x : UInt16} (h : x.toNat < 32768) (ruleCount : Nat) :
    decode (~~~x.toInt16) ruleCount = if x.toNat = ruleCount then .accept else .reduce x := by
  have hneg := toInt_complement h
  have hpos : ¬0 < ~~~x.toInt16 := by
    rw [Int16.lt_iff_toInt_lt, hneg, Int16.toInt_zero]
    omega
  have hzero : ~~~x.toInt16 ≠ 0 := by
    intro heq
    rw [heq, Int16.toInt_zero] at hneg
    omega
  rw [decode, if_neg hpos, if_neg hzero, Int16.not_not, UInt16.toUInt16_toInt16]

theorem decode_encode {action : Action} {ruleCount : Nat} (h : action.Encodable ruleCount)
    (hrules : ruleCount ≤ 32767) : decode (encode action ruleCount) ruleCount = action := by
  cases action with
  | shift state =>
    obtain ⟨hpos, hlt⟩ := h
    have hcode : 0 < state.toInt16 := by
      rw [Int16.lt_iff_toInt_lt, toInt_toInt16 hlt, Int16.toInt_zero]
      omega
    rw [encode, decode, if_pos hcode, UInt16.toUInt16_toInt16]
  | reduce rule =>
    have hlt : rule.toNat < ruleCount := h
    rw [encode, decode_complement (by omega), if_neg (by omega)]
  | accept =>
    have hnat : (UInt16.ofNat ruleCount).toNat = ruleCount := by
      rw [UInt16.toNat_ofNat']
      exact Nat.mod_eq_of_lt (by omega)
    have hcode : Int16.ofNat ruleCount = (UInt16.ofNat ruleCount).toInt16 := rfl
    rw [encode, hcode, decode_complement (by omega), if_pos hnat]
  | error => rfl

/-- A code is the code of the action that it stands for. -/
theorem encode_decode (code : Int16) (ruleCount : Nat) :
    encode (decode code ruleCount) ruleCount = code := by
  have hrule : ~~~(~~~code).toUInt16.toInt16 = code := by
    rw [Int16.toInt16_toUInt16, Int16.not_not]
  unfold decode
  split
  · exact Int16.toInt16_toUInt16 code
  · split
    · rename_i hzero
      exact hzero.symm
    · dsimp only
      split
      -- The complement of the code is the rule count, so it fits a word.
      · rename_i haccept
        have hword : Int16.ofNat (~~~code).toUInt16.toNat = (~~~code).toUInt16.toInt16 := by
          rw [← UInt16.toInt16_ofNat', UInt16.ofNat_toNat]
        rw [encode, ← haccept, hword, hrule]
      · exact hrule

/-- Two actions that have codes of their own have different ones. -/
theorem encode_injective {action action' : Action} {ruleCount : Nat}
    (h : action.Encodable ruleCount) (h' : action'.Encodable ruleCount)
    (hrules : ruleCount ≤ 32767) (heq : encode action ruleCount = encode action' ruleCount) :
    action = action' := by
  rw [← decode_encode h hrules, heq, decode_encode h' hrules]

end ShiftReduce.Action

namespace ShiftReduce.Rule

/-- The two halves of the word of a rule. -/
theorem toNat_packed_pack (lhs : SymbolId) (length : UInt16) :
    (pack lhs length).packed.toNat = lhs.toNat * 65536 + length.toNat := by
  have hlhs := lhs.toNat_lt
  have hlength := length.toNat_lt
  show (lhs.toUInt32 * 65536 + length.toUInt32).toNat = _
  rw [UInt32.toNat_add, UInt32.toNat_mul, UInt16.toNat_toUInt32, UInt16.toNat_toUInt32,
    show UInt32.toNat 65536 = 65536 from rfl]
  omega

theorem toNat_lhs (r : Rule) : r.lhs.toNat = r.packed.toNat / 65536 := by
  have hword := r.packed.toNat_lt
  rw [lhs, UInt32.toNat_toUInt16, UInt32.toNat_div, show UInt32.toNat 65536 = 65536 from rfl]
  omega

theorem length_eq_mod (r : Rule) : r.length = r.packed.toNat % 65536 := by
  rw [length, UInt32.toNat_mod, show UInt32.toNat 65536 = 65536 from rfl]

/-- A rule is packed without loss of what it produces. -/
theorem lhs_pack (lhs : SymbolId) (length : UInt16) : (pack lhs length).lhs = lhs := by
  have hlength := length.toNat_lt
  rw [← UInt16.toNat_inj, toNat_lhs, toNat_packed_pack]
  omega

/-- A rule is packed without loss of its length. -/
theorem length_pack (lhs : SymbolId) (length : UInt16) :
    (pack lhs length).length = length.toNat := by
  have hlength := length.toNat_lt
  rw [length_eq_mod, toNat_packed_pack]
  omega

/-- Every word is that of a rule, and of the one that it is read as. -/
theorem pack_lhs_length (r : Rule) : pack r.lhs (UInt16.ofNat r.length) = r := by
  have hhalves : (pack r.lhs (UInt16.ofNat r.length)).packed.toNat = r.packed.toNat := by
    rw [toNat_packed_pack, toNat_lhs, UInt16.toNat_ofNat', length_eq_mod]
    omega
  cases r
  exact congrArg Rule.mk (UInt32.toNat_inj.mp hhalves)

end ShiftReduce.Rule

namespace ShiftReduce

/-- Every code stands for an action and is the code of that action, whatever the number of rules
is. With up to `2 ^ 15 - 1` rules every action that has a code of its own is the one that its code
stands for, so that different actions have different codes. Rules are packed into words without
loss, and every word is that of the rule that it is read as. -/
theorem codes_round_trip :
    (∀ (code : Int16) (ruleCount : Nat),
      (Action.decode code ruleCount).encode ruleCount = code) ∧
    (∀ ruleCount ≤ 32767,
      (∀ action : Action, action.Encodable ruleCount →
        Action.decode (action.encode ruleCount) ruleCount = action) ∧
      ∀ action action' : Action, action.Encodable ruleCount → action'.Encodable ruleCount →
        action ≠ action' → action.encode ruleCount ≠ action'.encode ruleCount) ∧
    (∀ (lhs : SymbolId) (length : UInt16),
      (Rule.pack lhs length).lhs = lhs ∧ (Rule.pack lhs length).length = length.toNat) ∧
    ∀ word : UInt32,
      (Rule.pack (Rule.mk word).lhs (UInt16.ofNat (Rule.mk word).length)).packed = word := by
  refine ⟨Action.encode_decode, ?_, ?_, ?_⟩
  · intro ruleCount hrules
    refine ⟨fun action h => Action.decode_encode h hrules, ?_⟩
    intro action action' h h' hne heq
    exact hne (Action.encode_injective h h' hrules heq)
  · intro lhs length
    exact ⟨Rule.lhs_pack lhs length, Rule.length_pack lhs length⟩
  · intro word
    rw [Rule.pack_lhs_length]

/-- With as many rules as there can be, the accepting code is the least one there is, and the last
rule has the code above it. -/
theorem codes_round_trip_mostRules :
    Action.encode .accept 32767 = -32768 ∧ Action.decode (-32768) 32767 = .accept ∧
      Action.encode (.reduce 32766) 32767 = -32767 ∧
      Action.decode (Action.encode (.reduce 32766) 32767) 32767 = .reduce 32766 ∧
      Action.encode .accept 32767 ≠ Action.encode (.reduce 32766) 32767 := by
  obtain ⟨-, hactions, -⟩ := codes_round_trip
  obtain ⟨hdecode, hdistinct⟩ := hactions 32767 (Nat.le_refl _)
  have hlast : (Action.reduce 32766).Encodable 32767 := by
    show (32766 : UInt16).toNat < 32767
    decide
  exact ⟨rfl, hdecode .accept trivial, rfl, hdecode _ hlast,
    hdistinct _ _ trivial hlast (by decide)⟩

end ShiftReduce
