import TeenyBasic.Proofs.CLanguage.Grammar
import TeenyBasic.Proofs.Spelling

/-!
The value of arithmetic, exact and in C. Exact arithmetic reads every number as a decimal and computes
with rationals. C has ints and floats: a constant without a point is an int, in base eight when it
starts with `0`; ints stay ints until a float meets them, and their quotients lose the fraction. Floats
are taken as rationals, and ints have no bounds.

The two differ at two kinds of places (`isMisread`), and where neither occurs C gives every part of a
tree its exact value (`agrees_parts_iff`).
-/

set_option autoImplicit false

namespace TeenyBasic

namespace CLanguage

open Grammar

/-! ## Numbers -/

def hasPoint (text : String) : Bool :=
  text.toList.contains '.'

/-- The value of digits with or without a fraction. -/
def decimalValue (text : String) : Rat :=
  let whole := text.toList.takeWhile (· != '.')
  let fraction := (text.toList.dropWhile (· != '.')).drop 1
  (Nat.ofDigitChars 10 (whole ++ fraction) 0 : Rat) / 10 ^ fraction.length

inductive Value where
  | int (value : Int)
  | float (value : Rat)
  deriving DecidableEq, Repr

def Value.toRat : Value → Rat
  | .int value => value
  | .float value => value

@[simp] theorem Value.toRat_int (value : Int) : (Value.int value).toRat = value := rfl

@[simp] theorem Value.toRat_float (value : Rat) : (Value.float value).toRat = value := rfl

def Value.isInt : Value → Bool
  | .int _ => true
  | .float _ => false

def isOctalDigit (c : Char) : Bool :=
  '0' ≤ c && c ≤ '7'

/-- Whether C reads a constant in base eight. -/
def isOctal (text : String) : Bool :=
  !hasPoint text && text.toList.head? == some '0'

/-- The value of a constant; `08` and the like are none. -/
def constantValue? (text : String) : Option Value :=
  if hasPoint text then
    some (.float (decimalValue text))
  else if isOctal text then
    if text.toList.all isOctalDigit then some (.int (Nat.ofDigitChars 8 text.toList 0)) else none
  else
    some (.int (Nat.ofDigitChars 10 text.toList 0))

/-! ## Operators -/

section Operators

variable {number : Type}

def signed [Neg number] : Sign → number → number
  | .plus, value => value
  | .minus, value => -value

def summed [Add number] [Sub number] : Sign → number → number → number
  | .plus, left, right => left + right
  | .minus, left, right => left - right

/-- A product, or a quotient unless the divisor is zero. -/
def scaled? [Mul number] [OfNat number 0] [DecidableEq number] (quotient : number → number → number) :
    Scaling → number → number → Option number
  | .multiply, left, right => some (left * right)
  | .divide, left, right => if right = 0 then none else some (quotient left right)

end Operators

namespace Value

def signed (sign : Sign) : Value → Value
  | .int value => .int (CLanguage.signed sign value)
  | .float value => .float (CLanguage.signed sign value)

/-- Two ints are combined as ints, any other pair as floats. -/
def combine (ints : Int → Int → Option Int) (floats : Rat → Rat → Option Rat) :
    Value → Value → Option Value
  | .int left, .int right => (ints left right).map .int
  | left, right => (floats left.toRat right.toRat).map .float

def summed? (op : Sign) : Value → Value → Option Value :=
  combine (fun left right => some (summed op left right)) fun left right =>
    some (summed op left right)

def scaled? (op : Scaling) : Value → Value → Option Value :=
  combine (CLanguage.scaled? Int.tdiv op) (CLanguage.scaled? (· / ·) op)

@[simp] theorem toRat_signed (sign : Sign) (value : Value) :
    (value.signed sign).toRat = CLanguage.signed sign value.toRat := by
  cases sign <;> cases value <;> simp [signed, CLanguage.signed]

@[simp] theorem isInt_signed (sign : Sign) (value : Value) :
    (value.signed sign).isInt = value.isInt := by
  cases value <;> rfl

private theorem isInt_of_combine {ints : Int → Int → Option Int} {floats : Rat → Rat → Option Rat}
    {left right value : Value} (combined : combine ints floats left right = some value) :
    value.isInt = (left.isInt && right.isInt) := by
  cases left <;> cases right <;> simp only [combine, Option.map_eq_some_iff] at combined <;>
    obtain ⟨_, _, rfl⟩ := combined <;> rfl

theorem toRat_combine {ints : Int → Int → Option Int} {floats : Rat → Rat → Option Rat}
    (left right : Value)
    (same : ∀ dividend divisor : Int, left = .int dividend → right = .int divisor →
      (ints dividend divisor).map (fun value : Int => (value : Rat)) = floats dividend divisor) :
    (combine ints floats left right).map toRat = floats left.toRat right.toRat := by
  cases left with
  | int dividend =>
    cases right with
    | int divisor => simpa [combine, Function.comp_def] using same dividend divisor rfl rfl
    | float divisor => simp [combine, Function.comp_def]
  | float dividend => simp [combine, Function.comp_def]

theorem toRat_summed? (op : Sign) (left right : Value) :
    (summed? op left right).map toRat = some (summed op left.toRat right.toRat) := by
  refine toRat_combine left right ?_
  intro dividend divisor _ _
  cases op <;> simp [summed]

theorem toRat_product (left right : Value) :
    (scaled? .multiply left right).map toRat = some (left.toRat * right.toRat) := by
  refine toRat_combine left right ?_
  intro dividend divisor _ _
  simp [CLanguage.scaled?]

end Value

/-! ## Quotients of ints -/

private theorem tdiv_eq_quotient_iff (dividend : Int) {divisor : Int} (nonzero : divisor ≠ 0) :
    ((dividend.tdiv divisor : Int) : Rat) = dividend / divisor ↔
      ((dividend : Rat) / divisor).isInt = true := by
  constructor
  · intro equal
    rw [← equal]
    rfl
  · intro whole
    have nonzeroRat : (divisor : Rat) ≠ 0 := by simpa using nonzero
    generalize quotientIs : (dividend : Rat) / divisor = quotient at whole ⊢
    have integer : quotient = quotient.num := Rat.ext rfl (beq_iff_eq.mp whole)
    have product : dividend = quotient.num * divisor := by
      apply Rat.intCast_inj.mp
      rw [Rat.intCast_mul, ← integer, ← quotientIs, Rat.div_mul_cancel nonzeroRat]
    rw [product, Int.mul_tdiv_cancel _ nonzero]
    exact integer.symm

theorem Value.toRat_quotient_iff {left right : Value} (nonzero : right.toRat ≠ 0) :
    (Value.scaled? .divide left right).map toRat = some (left.toRat / right.toRat) ↔
      (left.isInt && right.isInt && !(left.toRat / right.toRat).isInt) = false := by
  cases left with
  | float dividend =>
    simp [Value.scaled?, combine, CLanguage.scaled?, nonzero, isInt]
  | int dividend =>
    cases right with
    | float divisor =>
      have divisorNonzero : divisor ≠ 0 := nonzero
      simp [Value.scaled?, combine, CLanguage.scaled?, isInt, divisorNonzero]
    | int divisor =>
      have divisorNonzero : divisor ≠ 0 := by simpa using nonzero
      simp [Value.scaled?, combine, CLanguage.scaled?, isInt, divisorNonzero, tdiv_eq_quotient_iff]

/-! ## Constants in base eight -/

private theorem isOctalDigit_iff {c : Char} (digit : c.isDigit = true) :
    isOctalDigit c = true ↔ c.toNat - '0'.toNat < 8 := by
  have bounds : 48 ≤ c.toNat ∧ c.toNat ≤ 57 := Char.isDigit_iff_toNat.mp digit
  have least : '0' ≤ c ↔ 48 ≤ c.toNat := Char.le_def.trans UInt32.le_iff_toNat_le
  have most : c ≤ '7' ↔ c.toNat ≤ 55 := Char.le_def.trans UInt32.le_iff_toNat_le
  have zero : '0'.toNat = 48 := rfl
  rw [isOctalDigit, Bool.and_eq_true, decide_eq_true_iff, decide_eq_true_iff, least, most, zero]
  omega

private theorem le_ofDigitChars (digits : List Char) (init : Nat) :
    init ≤ Nat.ofDigitChars 10 digits init := by
  induction digits generalizing init with
  | nil => simp
  | cons c digits ih =>
    rw [Nat.ofDigitChars_cons]
    exact Nat.le_trans (by omega) (ih _)

private theorem ofDigitChars_lt (digits : List Char) {octal decimal : Nat} (less : octal < decimal) :
    Nat.ofDigitChars 8 digits octal < Nat.ofDigitChars 10 digits decimal := by
  induction digits generalizing octal decimal with
  | nil => simpa using less
  | cons c digits ih =>
    rw [Nat.ofDigitChars_cons, Nat.ofDigitChars_cons]
    exact ih (by omega)

/-- Digits mean the same in base eight and in base ten only below eight. -/
theorem octal_eq_decimal_iff {digits : List Char} (isDigits : ∀ c ∈ digits, c.isDigit = true) :
    (digits.all isOctalDigit = true ∧
        Nat.ofDigitChars 8 digits 0 = Nat.ofDigitChars 10 digits 0) ↔
      Nat.ofDigitChars 10 digits 0 < 8 := by
  induction digits with
  | nil => simp
  | cons c digits ih =>
    have octalDigit := isOctalDigit_iff (isDigits c (.head _))
    have others := ih fun other inside => isDigits other (.tail _ inside)
    simp only [Nat.ofDigitChars_cons, Nat.mul_zero, Nat.zero_add, List.all_cons, Bool.and_eq_true,
      octalDigit]
    generalize c.toNat - '0'.toNat = digit
    rcases Nat.eq_zero_or_pos digit with rfl | positive
    · simpa using others
    · cases digits with
      | nil => simp
      | cons next digits =>
        simp only [Nat.ofDigitChars_cons]
        generalize next.toNat - '0'.toNat = nextDigit
        have less : Nat.ofDigitChars 8 digits (8 * digit + nextDigit) <
            Nat.ofDigitChars 10 digits (10 * digit + nextDigit) :=
          ofDigitChars_lt digits (by omega)
        have large := le_ofDigitChars digits (10 * digit + nextDigit)
        omega

private theorem decimalValue_of_not_hasPoint {text : String} (pointless : hasPoint text = false) :
    decimalValue text = Nat.ofDigitChars 10 text.toList 0 := by
  have noPoint : ∀ c ∈ text.toList, (c != '.') = true := by
    intro c inside
    simp only [hasPoint, List.contains_eq_mem, decide_eq_false_iff_not] at pointless
    simp only [bne_iff_ne]
    rintro rfl
    exact pointless inside
  have whole : (text.toList ++ []).takeWhile (· != '.') = _ := List.takeWhile_append_of_pos noPoint
  have rest : (text.toList ++ []).dropWhile (· != '.') = _ := List.dropWhile_append_of_pos noPoint
  rw [List.append_nil] at whole rest
  simp only [decimalValue, whole, rest, List.takeWhile_nil, List.dropWhile_nil, List.drop_nil,
    List.append_nil, List.length_nil, Rat.pow_zero]
  generalize (Nat.ofDigitChars 10 text.toList 0 : Rat) = value
  have cancel : value * 1 / 1 = value := Rat.mul_div_cancel (by decide)
  rwa [Rat.mul_one] at cancel

/-- C reads a numeral as the decimal it is, unless it reads it in base eight and it is eight or more. -/
theorem toRat_constantValue?_iff {text : String} (numeral : Numeral text) :
    (constantValue? text).map Value.toRat = some (decimalValue text) ↔
      (isOctal text && decide (8 ≤ decimalValue text)) = false := by
  cases point : hasPoint text with
  | true => simp [constantValue?, isOctal, point]
  | false =>
    have isDigits : ∀ c ∈ text.toList, c.isDigit = true := by
      cases numeral with
      | whole digits => simpa using digits.2
      | pointed _ _ => simp [hasPoint] at point
    have value := decimalValue_of_not_hasPoint point
    cases octal : isOctal text with
    | false =>
      rw [value, Bool.false_and]
      refine iff_of_true ?_ rfl
      simp only [constantValue?, point, octal, Bool.false_eq_true, if_false, Option.map_some,
        Value.toRat_int, Rat.intCast_natCast]
    | true =>
      have same := octal_eq_decimal_iff isDigits
      have small : (8 : Rat) ≤ (Nat.ofDigitChars 10 text.toList 0 : Nat) ↔
          8 ≤ Nat.ofDigitChars 10 text.toList 0 :=
        Rat.natCast_le_natCast
      simp only [constantValue?, point, octal, value, Bool.true_and, decide_eq_false_iff_not, small,
        Nat.not_le, ← same]
      cases octals : text.toList.all isOctalDigit with
      | true =>
        simp only [Bool.false_eq_true, if_true, if_false, Option.map_some, Value.toRat_int,
          Rat.intCast_natCast, Option.some.injEq, Rat.natCast_inj, true_and]
      | false => simp

/-! ## Trees -/

namespace Arithmetic

/-- The value in C; none for a constant without a value or a division by zero. -/
def value? (assignment : String → Rat) : Arithmetic → Option Value
  | number text => constantValue? text
  | name text => some (.float (assignment text))
  | signed sign operand => do return (← operand.value? assignment).signed sign
  | scaled op left right => do
    Value.scaled? op (← left.value? assignment) (← right.value? assignment)
  | summed op left right => do
    Value.summed? op (← left.value? assignment) (← right.value? assignment)

/-- The value over the rationals; none for a division by zero. -/
def exactValue? (assignment : String → Rat) : Arithmetic → Option Rat
  | number text => some (decimalValue text)
  | name text => some (assignment text)
  | signed sign operand => do return CLanguage.signed sign (← operand.exactValue? assignment)
  | scaled op left right => do
    scaled? (· / ·) op (← left.exactValue? assignment) (← right.exactValue? assignment)
  | summed op left right => do
    return CLanguage.summed op (← left.exactValue? assignment) (← right.exactValue? assignment)

/-- The tree and all that it is made of. -/
def parts (tree : Arithmetic) : List Arithmetic :=
  tree :: match tree with
    | number _ => []
    | name _ => []
    | signed _ operand => operand.parts
    | scaled _ left right => left.parts ++ right.parts
    | summed _ left right => left.parts ++ right.parts

/-- Whether the value in C is an int. -/
def isWhole : Arithmetic → Bool
  | number text => !hasPoint text
  | name _ => false
  | signed _ operand => operand.isWhole
  | scaled _ left right => left.isWhole && right.isWhole
  | summed _ left right => left.isWhole && right.isWhole

/-- Whether C gives a tree another value than the exact one even where its parts have theirs: eight or
more in base eight, and a quotient of ints that is none itself. -/
def isMisread (assignment : String → Rat) : Arithmetic → Bool
  | number text => isOctal text && decide (8 ≤ decimalValue text)
  | scaled .divide left right =>
    left.isWhole && right.isWhole &&
      ((scaled .divide left right).exactValue? assignment).any fun quotient => !quotient.isInt
  | _ => false

/-- Every number is digits with or without a fraction. -/
def Spelled : Arithmetic → Prop
  | number text => Numeral text
  | name _ => True
  | signed _ operand => operand.Spelled
  | scaled _ left right => left.Spelled ∧ right.Spelled
  | summed _ left right => left.Spelled ∧ right.Spelled

def Agrees (assignment : String → Rat) (tree : Arithmetic) : Prop :=
  (tree.value? assignment).map Value.toRat = tree.exactValue? assignment

variable {assignment : String → Rat}

theorem mem_parts (tree : Arithmetic) : tree ∈ tree.parts := by
  unfold parts
  exact .head _

private theorem isInt_of_value? {tree : Arithmetic} {value : Value}
    (evaluates : tree.value? assignment = some value) : value.isInt = tree.isWhole := by
  induction tree generalizing value with
  | number text =>
    simp only [value?, constantValue?] at evaluates
    cases point : hasPoint text with
    | true =>
      simp only [point, ↓reduceIte, Option.some.injEq] at evaluates
      simp [← evaluates, Value.isInt, isWhole, point]
    | false =>
      simp only [point, Bool.false_eq_true, ↓reduceIte] at evaluates
      have int : ∃ number, value = .int number := by
        split at evaluates
        · split at evaluates
          · exact ⟨_, (Option.some.inj evaluates).symm⟩
          · cases evaluates
        · exact ⟨_, (Option.some.inj evaluates).symm⟩
      obtain ⟨number, rfl⟩ := int
      simp [Value.isInt, isWhole, point]
  | name text =>
    cases evaluates
    rfl
  | signed sign operand ih =>
    obtain ⟨inner, evaluatesInner, signed⟩ := Option.bind_eq_some_iff.mp evaluates
    cases signed
    rw [Value.isInt_signed, ih evaluatesInner, isWhole]
  | scaled op left right leftIH rightIH =>
    obtain ⟨leftValue, evaluatesLeft, rest⟩ := Option.bind_eq_some_iff.mp evaluates
    obtain ⟨rightValue, evaluatesRight, combined⟩ := Option.bind_eq_some_iff.mp rest
    rw [Value.isInt_of_combine combined, leftIH evaluatesLeft, rightIH evaluatesRight, isWhole]
  | summed op left right leftIH rightIH =>
    obtain ⟨leftValue, evaluatesLeft, rest⟩ := Option.bind_eq_some_iff.mp evaluates
    obtain ⟨rightValue, evaluatesRight, combined⟩ := Option.bind_eq_some_iff.mp rest
    rw [Value.isInt_of_combine combined, leftIH evaluatesLeft, rightIH evaluatesRight, isWhole]

/-! ## One node -/

private theorem Agrees.signed {operand : Arithmetic} (agrees : operand.Agrees assignment)
    (sign : Sign) : (signed sign operand).Agrees assignment := by
  unfold Agrees at agrees ⊢
  simp only [value?, exactValue?, ← agrees]
  cases operand.value? assignment <;> simp

private theorem Agrees.summed {left right : Arithmetic} (leftAgrees : left.Agrees assignment)
    (rightAgrees : right.Agrees assignment) (op : Sign) :
    (summed op left right).Agrees assignment := by
  unfold Agrees at leftAgrees rightAgrees ⊢
  simp only [value?, exactValue?, ← leftAgrees, ← rightAgrees]
  cases left.value? assignment <;> cases right.value? assignment <;> simp [Value.toRat_summed?]

private theorem Agrees.product {left right : Arithmetic} (leftAgrees : left.Agrees assignment)
    (rightAgrees : right.Agrees assignment) : (scaled .multiply left right).Agrees assignment := by
  unfold Agrees at leftAgrees rightAgrees ⊢
  simp only [value?, exactValue?, ← leftAgrees, ← rightAgrees]
  cases left.value? assignment <;> cases right.value? assignment <;>
    simp [Value.toRat_product, scaled?]

private theorem agrees_quotient_iff {left right : Arithmetic} (leftAgrees : left.Agrees assignment)
    (rightAgrees : right.Agrees assignment)
    (defined : ((scaled .divide left right).exactValue? assignment).isSome = true) :
    (scaled .divide left right).Agrees assignment ↔
      (scaled .divide left right).isMisread assignment = false := by
  obtain ⟨quotient, evaluates⟩ := Option.isSome_iff_exists.mp defined
  obtain ⟨dividend, leftExact, rest⟩ := Option.bind_eq_some_iff.mp evaluates
  obtain ⟨divisor, rightExact, divided⟩ := Option.bind_eq_some_iff.mp rest
  obtain ⟨leftValue, leftEvaluates, rfl⟩ :=
    Option.map_eq_some_iff.mp (leftAgrees.trans leftExact)
  obtain ⟨rightValue, rightEvaluates, rfl⟩ :=
    Option.map_eq_some_iff.mp (rightAgrees.trans rightExact)
  have nonzero : rightValue.toRat ≠ 0 := by
    intro zero
    simp [scaled?, zero] at divided
  obtain rfl : leftValue.toRat / rightValue.toRat = quotient := by
    simpa [scaled?, nonzero] using divided
  simp only [isMisread, evaluates, Option.any_some, ← isInt_of_value? leftEvaluates,
    ← isInt_of_value? rightEvaluates]
  rw [← Value.toRat_quotient_iff nonzero, Agrees, evaluates]
  simp [value?, leftEvaluates, rightEvaluates]

private theorem agrees_scaled_iff {op : Scaling} {left right : Arithmetic}
    (leftAgrees : left.Agrees assignment) (rightAgrees : right.Agrees assignment)
    (defined : ((scaled op left right).exactValue? assignment).isSome = true) :
    (scaled op left right).Agrees assignment ↔
      (scaled op left right).isMisread assignment = false := by
  cases op with
  | multiply => exact iff_of_true (leftAgrees.product rightAgrees) rfl
  | divide => exact agrees_quotient_iff leftAgrees rightAgrees defined

/-! ## Whole trees -/

private theorem isSome_of_isSome_bind₂ {α β γ : Type} {left : Option α} {right : Option β}
    {combine : α → β → Option γ}
    (defined : (left.bind fun a => right.bind fun b => combine a b).isSome = true) :
    left.isSome = true ∧ right.isSome = true := by
  refine ⟨Option.isSome_of_isSome_bind defined, ?_⟩
  exact Option.isSome_of_isSome_bind (Option.isSome_apply_of_isSome_bind defined)

/-- C gives every part of a tree its exact value if and only if it misreads none. -/
theorem agrees_parts_iff {tree : Arithmetic} (spelled : tree.Spelled)
    (defined : (tree.exactValue? assignment).isSome = true) :
    (∀ part ∈ tree.parts, part.Agrees assignment) ↔
      ∀ part ∈ tree.parts, part.isMisread assignment = false := by
  induction tree with
  | number text =>
    simp only [parts, List.forall_mem_singleton]
    exact toRat_constantValue?_iff spelled
  | name text => simp [parts, Agrees, value?, exactValue?, isMisread]
  | signed sign operand ih =>
    have parts := ih spelled (Option.isSome_of_isSome_bind defined)
    rw [Arithmetic.parts, List.forall_mem_cons, List.forall_mem_cons, ← parts]
    refine and_congr_left fun agree => iff_of_true ?_ rfl
    exact (agree operand operand.mem_parts).signed sign
  | scaled op left right leftIH rightIH =>
    obtain ⟨leftDefined, rightDefined⟩ := isSome_of_isSome_bind₂ defined
    rw [parts, List.forall_mem_cons, List.forall_mem_cons, List.forall_mem_append,
      List.forall_mem_append, ← leftIH spelled.1 leftDefined, ← rightIH spelled.2 rightDefined]
    refine and_congr_left fun ⟨leftAgree, rightAgree⟩ => ?_
    exact agrees_scaled_iff (leftAgree left left.mem_parts) (rightAgree right right.mem_parts)
      defined
  | summed op left right leftIH rightIH =>
    obtain ⟨leftDefined, rightDefined⟩ := isSome_of_isSome_bind₂ defined
    rw [parts, List.forall_mem_cons, List.forall_mem_cons, List.forall_mem_append,
      List.forall_mem_append, ← leftIH spelled.1 leftDefined, ← rightIH spelled.2 rightDefined]
    refine and_congr_left fun ⟨leftAgree, rightAgree⟩ => iff_of_true ?_ rfl
    exact (leftAgree left left.mem_parts).summed (rightAgree right right.mem_parts) op

end Arithmetic

end CLanguage

end TeenyBasic
