set_option autoImplicit false

namespace MarkSweep.Text

/-- The quotient rounded to the nearest whole number, a half to the even neighbour. -/
def roundDiv (num den : Nat) : Nat :=
  let q := num / den
  let twice := 2 * (num % den)
  if twice < den then q
  else if den < twice then q + 1
  else if q % 2 = 0 then q else q + 1

/-- The nearest number with at most 53 significant binary digits, a half to the even neighbour. -/
def roundTo53Bits (n : Nat) : Nat :=
  let step := 1 <<< (n.log2 + 1 - 53)
  roundDiv n step * step

def padded (width n : Nat) : String :=
  let digits := Nat.toDigits 10 n
  String.ofList (List.replicate (width - digits.length) '0' ++ digits)

def hundredths (n : Nat) : String :=
  s!"{n / 100}.{padded 2 (n % 100)}"

def inUnit (bytes unit : Nat) (name : String) : String :=
  s!"{hundredths (roundDiv (roundTo53Bits bytes * 100) unit)} {name}"

def kilobyte : Nat := 1024

def megabyte : Nat := 1024 * kilobyte

def gigabyte : Nat := 1024 * megabyte

def byteCount (bytes : Nat) : String :=
  if gigabyte ≤ bytes then inUnit bytes gigabyte "GB"
  else if megabyte ≤ bytes then inUnit bytes megabyte "MB"
  else if kilobyte ≤ bytes then inUnit bytes kilobyte "KB"
  else s!"{bytes} bytes"

def powerOfTen : Nat → Nat
  | 0 => 1
  | places + 1 => 10 * powerOfTen places

def shortDecimal (places n : Nat) : String :=
  let whole := n / powerOfTen places
  let digits := (padded places (n % powerOfTen places)).toList
  match (digits.reverse.dropWhile (· = '0')).reverse with
  | [] => s!"{whole}"
  | fraction => s!"{whole}.{String.ofList fraction}"

def duration (nanos : Nat) : String :=
  if powerOfTen 9 ≤ nanos then shortDecimal 9 nanos ++ "s"
  else if powerOfTen 6 ≤ nanos then shortDecimal 6 nanos ++ "ms"
  else if powerOfTen 3 ≤ nanos then shortDecimal 3 nanos ++ "µs"
  else s!"{nanos}ns"

example : byteCount 1023 = "1023 bytes" ∧ byteCount 65536 = "64.00 KB" := by decide +kernel
example : duration 1500 = "1.5µs" ∧ duration 0 = "0ns" := by decide +kernel

end MarkSweep.Text
