namespace UsbDevice

/-- A computation that no interrupt can divide. There is nothing to divide it here, so it is the computation
itself. -/
abbrev Critical (α : Type) := Id α

/-- The number whose digits to base 3 are `value` and then `numbers`. Each digit opens a critical section inside that
of the digit before it, and the innermost result is handed out through all of them. -/
def Critical.digits (value : Int64) : List Int64 → Critical Int64
  | [] => value
  | n :: numbers => digits (3 * value + n) numbers

/-- A section inside others continues with what they have reached. -/
theorem Critical.digits_append (value : Int64) (numbers later : List Int64) :
    digits value (numbers ++ later) = digits (digits value numbers) later := by
  induction numbers generalizing value with
  | nil => rfl
  | cons n numbers ih => exact ih (3 * value + n)

/-- That each section computes with 64 bits makes no difference: the result is the number itself, cut to 64 bits. -/
theorem Critical.digits_eq_ofInt (value : Int) (numbers : List Int64) :
    digits (.ofInt value) numbers = Int64.ofInt (numbers.foldl (fun sum n => 3 * sum + n.toInt) value) := by
  induction numbers generalizing value with
  | nil => rfl
  | cons n numbers ih =>
    have reached : 3 * Int64.ofInt value + n = Int64.ofInt (3 * value + n.toInt) := by
      rw [Int64.ofInt_add, Int64.ofInt_mul, Int64.ofInt_toInt]
      rfl
    rw [digits, reached, ih, List.foldl_cons]

end UsbDevice
