import Mathlib.Data.List.Basic
import Mathlib.Data.List.Forall2
import Mathlib.Data.List.Induction
import Mathlib.Tactic.Ring

/-!
# Positional numerals

The digits of a number in a base, the number that digits denote, and both through an
alphabet in which each digit has a symbol.  Digits come highest first.
-/

set_option autoImplicit false

namespace Foundation.Numeral

def digitsOf (base : Nat) : Nat → Nat → List Nat
  | 0, _ => []
  | count + 1, number => number / base ^ count % base :: digitsOf base count number

def valueOf (base : Nat) (digits : List Nat) : Nat :=
  digits.foldl (fun value digit => value * base + digit) 0

theorem digitsOf_length (base count number : Nat) :
    (digitsOf base count number).length = count := by
  induction count with
  | zero => rfl
  | succ count ih => rw [digitsOf, List.length_cons, ih]

theorem digitsOf_lt (base count number : Nat) (positive : 0 < base) :
    ∀ digit ∈ digitsOf base count number, digit < base := by
  induction count with
  | zero => simp [digitsOf]
  | succ count ih =>
      intro digit member
      rcases List.mem_cons.mp member with rfl | later
      · exact Nat.mod_lt _ positive
      · exact ih digit later

/-- What has been read so far counts as often as there are digits to come. -/
theorem foldl_eq (base : Nat) (digits : List Nat) (value : Nat) :
    digits.foldl (fun value digit => value * base + digit) value =
      value * base ^ digits.length + valueOf base digits := by
  induction digits generalizing value with
  | nil => simp [valueOf]
  | cons digit rest ih =>
      have first : valueOf base (digit :: rest) =
          digit * base ^ rest.length + valueOf base rest := by
        rw [valueOf, List.foldl_cons, ih, Nat.zero_mul, Nat.zero_add]
      rw [List.foldl_cons, ih, first, List.length_cons]
      ring

theorem valueOf_cons (base digit : Nat) (rest : List Nat) :
    valueOf base (digit :: rest) = digit * base ^ rest.length + valueOf base rest := by
  rw [valueOf, List.foldl_cons, foldl_eq, Nat.zero_mul, Nat.zero_add]

theorem valueOf_append (base digit : Nat) (digits : List Nat) :
    valueOf base (digits ++ [digit]) = valueOf base digits * base + digit := by
  rw [valueOf, List.foldl_append]
  rfl

theorem valueOf_le_valueOf (small large : Nat) (le : small ≤ large) (digits : List Nat) :
    valueOf small digits ≤ valueOf large digits := by
  induction digits using List.reverseRecOn with
  | nil => exact Nat.le_refl _
  | append_singleton digits digit ih =>
      rw [valueOf_append, valueOf_append]
      exact Nat.add_le_add_right (Nat.mul_le_mul ih le) digit

/-- Two bases agree on a number that takes one digit, and on no other. -/
theorem valueOf_eq_valueOf_iff (small large : Nat) (positive : 0 < small) (less : small < large)
    (digits : List Nat) (below : ∀ digit ∈ digits, digit < small) :
    valueOf large digits = valueOf small digits ↔ valueOf small digits < small := by
  induction digits using List.reverseRecOn with
  | nil => exact iff_of_true rfl positive
  | append_singleton digits digit ih =>
      have ih := ih fun other member => below other (List.mem_append_left _ member)
      have last := below digit List.mem_concat_self
      have le := valueOf_le_valueOf small large less.le digits
      rw [valueOf_append, valueOf_append, Nat.add_right_cancel_iff]
      constructor
      · intro same
        have none : valueOf small digits = 0 := by
          by_contra some
          have grows := Nat.mul_lt_mul_of_pos_left less (Nat.pos_of_ne_zero some)
          have larger := Nat.mul_le_mul_right large le
          omega
        rwa [none, Nat.zero_mul, Nat.zero_add]
      · intro short
        have none : valueOf small digits = 0 := by
          by_contra some
          have grows := Nat.le_mul_of_pos_left small (Nat.pos_of_ne_zero some)
          omega
        rw [ih.mpr (by omega), none, Nat.zero_mul, Nat.zero_mul]

theorem valueOf_digitsOf (base count number : Nat) :
    valueOf base (digitsOf base count number) = number % base ^ count := by
  induction count with
  | zero => rw [pow_zero, Nat.mod_one]; rfl
  | succ count ih =>
      rw [digitsOf, valueOf_cons, digitsOf_length, ih, pow_succ, Nat.mod_mul]
      ring

section Alphabet
variable {α : Type}

def read? (base : Nat) (digit? : α → Option Nat) (text : List α) : Option Nat :=
  (text.mapM digit?).map (valueOf base)

theorem mapM_eq_some_iff (digit? : α → Option Nat) (text : List α) (digits : List Nat) :
    text.mapM digit? = some digits ↔
      List.Forall₂ (fun symbol digit => digit? symbol = some digit) text digits := by
  induction text generalizing digits with
  | nil => cases digits <;> simp
  | cons symbol rest ih =>
      rw [List.mapM_cons, List.forall₂_cons_left_iff]
      cases here : digit? symbol with
      | none => simp
      | some digit =>
          cases later : rest.mapM digit? with
          | none => simp [← ih, later]
          | some others => simp [← ih, later, eq_comm]

theorem mapM_isSome_iff (digit? : α → Option Nat) (text : List α) :
    (text.mapM digit?).isSome ↔ ∀ symbol ∈ text, (digit? symbol).isSome := by
  induction text with
  | nil => simp
  | cons symbol rest ih =>
      rw [List.mapM_cons, List.forall_mem_cons, ← ih]
      cases digit? symbol with
      | none => simp
      | some digit => cases rest.mapM digit? <;> simp

theorem mapM_symbols (base : Nat) (symbol : Nat → α) (digit? : α → Option Nat)
    (back : ∀ digit < base, digit? (symbol digit) = some digit) (digits : List Nat)
    (below : ∀ digit ∈ digits, digit < base) :
    (digits.map symbol).mapM digit? = some digits := by
  induction digits with
  | nil => rfl
  | cons digit rest ih =>
      have here := back digit (below digit List.mem_cons_self)
      have later := ih fun other member => below other (List.mem_cons_of_mem digit member)
      simp [List.mapM_cons, here, later]

theorem read?_digitsOf (base count number : Nat) (positive : 0 < base) (symbol : Nat → α)
    (digit? : α → Option Nat) (back : ∀ digit < base, digit? (symbol digit) = some digit)
    (fits : number < base ^ count) :
    read? base digit? ((digitsOf base count number).map symbol) = some number := by
  rw [read?, mapM_symbols base symbol digit? back _ (digitsOf_lt base count number positive),
    Option.map_some, valueOf_digitsOf, Nat.mod_eq_of_lt fits]

end Alphabet

/-! ## Upper-case hexadecimal digits as bytes -/

def hexSymbol (digit : Nat) : UInt8 :=
  if digit < 10 then 48 + UInt8.ofNat digit else 55 + UInt8.ofNat digit

def hexDigit? (symbol : UInt8) : Option Nat :=
  if 48 ≤ symbol ∧ symbol ≤ 57 then some (symbol.toNat - 48)
  else if 65 ≤ symbol ∧ symbol ≤ 70 then some (symbol.toNat - 55)
  else none

theorem hexDigit?_hexSymbol : ∀ digit < 16, hexDigit? (hexSymbol digit) = some digit := by decide

def hexText (count number : Nat) : List UInt8 := (digitsOf 16 count number).map hexSymbol

theorem hexText_length (count number : Nat) : (hexText count number).length = count := by
  rw [hexText, List.length_map, digitsOf_length]

theorem read?_hexText (count number : Nat) (fits : number < 16 ^ count) :
    read? 16 hexDigit? (hexText count number) = some number :=
  read?_digitsOf 16 count number (by decide) hexSymbol hexDigit? hexDigit?_hexSymbol fits

end Foundation.Numeral
