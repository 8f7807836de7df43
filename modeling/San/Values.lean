import San.Statement

/-! # What an assignment computes

The numeric domains speak about the values that locals have when the program runs.  A
store gives every local the bit pattern it holds, as a number below two to the power of its
width; the type of the local says how to read the pattern.  `BinOp.result` is the machine
result of an operation, and `MayYield` says which values an rvalue may give to a local:
projected places may hold anything, and an rvalue that is not modelled may yield any value of
the type of its destination.
-/
namespace San

/-! ## Types -/

def IntTy.bits : IntTy → Nat
  | .i8 => 8
  | .i16 => 16
  | .i32 => 32
  | .i64 => 64
  | .isize => 64
  | .i128 => 128

def UintTy.bits : UintTy → Nat
  | .u8 => 8
  | .u16 => 16
  | .u32 => 32
  | .u64 => 64
  | .usize => 64
  | .u128 => 128

namespace Ty

/-- The width of a scalar type. -/
def bits : Ty → Nat
  | .bool => 1
  | .char => 32
  | .int w => w.bits
  | .uint w => w.bits
  | _ => 0

def signed : Ty → Bool
  | .int _ => true
  | _ => false

/-- The bit pattern is one of a value of the type. -/
def InRange : Ty → Nat → Prop
  | .bool, v => v < 2
  | .char, v => v < 0xD800 ∨ 0xDFFF < v ∧ v ≤ 0x10FFFF
  | .int w, v => v < 2 ^ w.bits
  | .uint w, v => v < 2 ^ w.bits
  | _, _ => True

/-- `bool`, `char` and the unsigned types of at most 64 bits. -/
def IsSmallUnsigned : Ty → Prop
  | .bool => True
  | .char => True
  | .uint w => w.bits ≤ 64
  | _ => False

instance decidableInRange : ∀ (ty : Ty) (v : Nat), Decidable (ty.InRange v)
  | .bool, v => inferInstanceAs (Decidable (v < 2))
  | .char, v => inferInstanceAs (Decidable (v < 0xD800 ∨ 0xDFFF < v ∧ v ≤ 0x10FFFF))
  | .int w, v => inferInstanceAs (Decidable (v < 2 ^ w.bits))
  | .uint w, v => inferInstanceAs (Decidable (v < 2 ^ w.bits))
  | .float, _ | .rawPtr _ _, _ | .ref _ _, _ | .adt _, _ | .tuple _, _ | .other, _ =>
      .isTrue trivial

instance decidableIsSmallUnsigned : ∀ ty : Ty, Decidable ty.IsSmallUnsigned
  | .bool | .char => .isTrue trivial
  | .uint w => inferInstanceAs (Decidable (w.bits ≤ 64))
  | .int _ | .float | .rawPtr _ _ | .ref _ _ | .adt _ | .tuple _ | .other => .isFalse nofun

/-- The number that a bit pattern stands for. -/
def toInt (ty : Ty) (v : Nat) : Int :=
  if ty.signed = true ∧ 2 ^ (ty.bits - 1) ≤ v then (v : Int) - 2 ^ ty.bits else v

/-- The bit pattern of a number, cut to the width of the type. -/
def wrap (ty : Ty) (i : Int) : Nat := (i % 2 ^ ty.bits).toNat

theorem toInt_of_unsigned {ty : Ty} (h : ty.signed = false) (v : Nat) : ty.toInt v = v := by
  simp only [toInt, h, Bool.false_eq_true, false_and, if_false]

/-- Cutting a natural number to a width does not make it larger. -/
theorem wrap_natCast (ty : Ty) (v : Nat) : ty.wrap (v : Int) = v % 2 ^ ty.bits := by
  unfold wrap
  have hpow : ((2 ^ ty.bits : Nat) : Int) = 2 ^ ty.bits := by norm_cast
  rw [← hpow, ← Int.natCast_emod, Int.toNat_natCast]

theorem wrap_natCast_le (ty : Ty) (v : Nat) : ty.wrap (v : Int) ≤ v := by
  rw [wrap_natCast]
  exact Nat.mod_le _ _

theorem signed_of_isSmallUnsigned {ty : Ty} (h : ty.IsSmallUnsigned) : ty.signed = false := by
  cases ty with
  | int _ => exact h.elim
  | _ => rfl

theorem signed_of_not_isInteger {ty : Ty} (h : ty.isInteger = false) : ty.signed = false := by
  cases ty with
  | int _ => cases h
  | _ => rfl

theorem bits_of_isSmallUnsigned {ty : Ty} (h : ty.IsSmallUnsigned) : ty.bits ≤ 64 := by
  cases ty with
  | bool => decide
  | char => decide
  | uint w => exact h
  | _ => exact h.elim

/-- A value of a small unsigned type is at most the bound that the analysis has for it. -/
theorem InRange.le_uintTypeMax {ty : Ty} {v : Nat} (h : ty.InRange v) {m : U64}
    (hm : uintTypeMax ty = some m) : v ≤ m.val := by
  cases ty with
  | bool => cases hm; exact Nat.le_of_lt_succ h
  | char =>
    cases hm
    rcases h with h | ⟨_, h⟩
    · exact Nat.le_of_lt (Nat.lt_of_lt_of_le h (by decide))
    · exact h
  | uint w => cases w <;> cases hm <;> exact Nat.le_of_lt_succ h
  | _ => cases hm

theorem InRange.lt_two_pow {ty : Ty} {v : Nat} (h : ty.InRange v) (hty : ty.IsSmallUnsigned) :
    v < 2 ^ 64 := by
  cases ty with
  | bool => exact Nat.lt_trans h (by decide)
  | char =>
    rcases h with h | ⟨_, h⟩
    · exact Nat.lt_trans h (by decide)
    · exact Nat.lt_of_le_of_lt h (by decide)
  | uint w => exact Nat.lt_of_lt_of_le h (Nat.pow_le_pow_right (by decide) hty)
  | _ => exact hty.elim

end Ty

/-! ## Results -/

/-- The bit pattern that each local holds. -/
abbrev Store := Local → Nat

/-- What a whole local or a constant holds. -/
def Operand.pattern (σ : Store) : Operand → Option Nat
  | .constant c => c.scalarInt.map Fin.val
  | op => (operandLocal op).map σ

theorem Operand.pattern_of_local {σ : Store} {op : Operand} {l : Local}
    (h : operandLocal op = some l) : op.pattern σ = some (σ l) := by
  cases op with
  | copy p => exact congrArg (Option.map σ) h
  | move p => exact congrArg (Option.map σ) h
  | constant c => cases h

theorem Const.toU64_eq_some {c : Const} {k : U64} (h : c.toU64 = some k) :
    c.scalarInt.map Fin.val = some k.val := by
  obtain ⟨bits, hbits, h⟩ := Option.bind_eq_some_iff.mp h
  split at h
  · cases h
    rw [hbits]
    rfl
  · cases h

theorem Operand.pattern_of_constU64 {σ : Store} {op : Operand} {k : U64}
    (h : constU64 op = some k) : op.pattern σ = some k.val := by
  cases op with
  | copy p => cases h
  | move p => cases h
  | constant c => exact Const.toU64_eq_some h

/-- The outcome of a comparison, as a `bool`. -/
def flag (p : Prop) [Decidable p] : Nat := if p then 1 else 0

/-- The machine result of an operation on operands of type `cty`, with a result of type
`ty`.  Shift amounts are masked. -/
def BinOp.result (ty cty : Ty) (x y : Nat) : BinOp → Option Nat
  | .add => some (ty.wrap (x + y))
  | .sub => some (ty.wrap (x - y))
  | .mul => some (ty.wrap (x * y))
  | .div => if y = 0 then none else some (ty.wrap ((ty.toInt x).tdiv (ty.toInt y)))
  | .rem => if y = 0 then none else some (ty.wrap ((ty.toInt x).tmod (ty.toInt y)))
  | .bitXor => some (x ^^^ y)
  | .bitAnd => some (x &&& y)
  | .bitOr => some (x ||| y)
  | .shl => some (ty.wrap (x * 2 ^ (y % ty.bits)))
  | .shr => some (ty.wrap (ty.toInt x / 2 ^ (y % ty.bits)))
  | .eq => some (flag (x = y))
  | .ne => some (flag (x ≠ y))
  | .lt => some (flag (cty.toInt x < cty.toInt y))
  | .le => some (flag (cty.toInt x ≤ cty.toInt y))
  | .gt => some (flag (cty.toInt x > cty.toInt y))
  | .ge => some (flag (cty.toInt x ≥ cty.toInt y))
  | _ => none

/-- The type of the operands of a binary operation, if one of them is a whole local. -/
def operandsTy (body : Body) (op1 op2 : Operand) : Ty :=
  (((operandLocal op1).or (operandLocal op2)).map body.localTy).getD .other

/-- `x` may be what the operand holds.  Projected places and constants that are no scalars may
hold anything. -/
def Operand.Denotes (σ : Store) (op : Operand) (x : Nat) : Prop :=
  ∀ p, op.pattern σ = some p → x = p

/-- The operations whose result is a pair of a number and an overflow flag. -/
def BinOp.yieldsPair : BinOp → Bool
  | .addWithOverflow | .subWithOverflow | .mulWithOverflow => true
  | _ => false

/-- `v` may be the machine result of the rvalue, for a destination of the scalar type `ty`.
The operands of an operation that is no comparison are of the type of its result. -/
def Rvalue.Yields (body : Body) (σ : Store) (ty : Ty) : Rvalue → Nat → Prop
  | .use op, v => op.Denotes σ v
  | .cast .intToInt op castTy, v => castTy = ty ∧
      ∀ l, operandLocal op = some l → v = castTy.wrap ((body.localTy l).toInt (σ l))
  | .binaryOp op op1 op2, v => op.yieldsPair = false ∧
      ∃ x y, op1.Denotes σ x ∧ op2.Denotes σ y ∧ (op.isComparison = false → ty.InRange x) ∧
        ∀ r, op.result ty (operandsTy body op1 op2) x y = some r → v = r
  | _, _ => True

/-- `v` is a value of the type of `dst`, and one that the rvalue may yield. -/
def MayYield (body : Body) (σ : Store) (dst : Local) (rvalue : Rvalue) (v : Nat) : Prop :=
  (body.localTy dst).InRange v ∧ rvalue.Yields body σ (body.localTy dst) v

theorem Operand.Denotes.of_local {σ : Store} {op : Operand} {x : Nat} (h : op.Denotes σ x)
    {l : Local} (hl : operandLocal op = some l) : x = σ l := h _ (Operand.pattern_of_local hl)

theorem Operand.Denotes.of_const {σ : Store} {op : Operand} {x : Nat} (h : op.Denotes σ x)
    {k : U64} (hk : constU64 op = some k) : x = k.val := h _ (Operand.pattern_of_constU64 hk)

/-- The store after `dst` has received `v`. -/
def Store.set (σ : Store) (dst : Local) (v : Nat) : Store := fun l => if l = dst then v else σ l

@[simp] theorem Store.set_self (σ : Store) (dst : Local) (v : Nat) : σ.set dst v dst = v :=
  if_pos rfl

theorem Store.set_of_ne {σ : Store} {dst l : Local} (h : l ≠ dst) (v : Nat) :
    σ.set dst v l = σ l := if_neg h

/-- The successor that a switch takes for the value `v`. -/
def SwitchTargets.select {n : Nat} (t : SwitchTargets n) (v : Nat) : Fin n :=
  ((t.targets.find? fun p => p.1.val == v).map Prod.snd).getD t.otherwise

end San
