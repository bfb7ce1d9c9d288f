import ActorScript.Word

/-!
# Numbers in bytes

Numbers of a fixed width, the least significant byte first, and the text of
bytes in base sixteen.
-/

namespace ActorScript.Bytes

/-- The low bytes of a number, the least significant first. -/
def ofNat : (width : Nat) → Nat → List UInt8
  | 0, _ => []
  | width + 1, value => UInt8.ofNat value :: ofNat width (value / 256)

/-- The number with the given bytes, the least significant first. -/
def toNat : List UInt8 → Nat
  | [] => 0
  | byte :: rest => byte.toNat + 256 * toNat rest

@[simp]
theorem length_ofNat (width value : Nat) : (ofNat width value).length = width := by
  induction width generalizing value with
  | zero => rfl
  | succ width ih => simp [ofNat, ih]

/-- Reading back a number that fits its width gives the number. -/
theorem toNat_ofNat {width value : Nat} (fits : value < Nat.pow 256 width) :
    toNat (ofNat width value) = value := by
  induction width generalizing value with
  | zero =>
      have : value = 0 := by simpa using fits
      simp [ofNat, toNat, this]
  | succ width ih =>
      have smaller : value / 256 < Nat.pow 256 width := by
        rw [Nat.div_lt_iff_lt_mul (by decide)]
        simpa [Nat.pow_succ] using fits
      simp only [ofNat, toNat, ih smaller, UInt8.toNat_ofNat']
      omega

/-- The four bytes of a word. -/
def ofWord (word : Word) : List UInt8 :=
  ofNat 4 word.toUInt32.toNat

/-- The word with the given four bytes. -/
def toWord (bytes : List UInt8) : Word :=
  (UInt32.ofNat (toNat bytes)).toInt32

@[simp]
theorem length_ofWord (word : Word) : (ofWord word).length = 4 :=
  length_ofNat 4 _

@[simp]
theorem toWord_ofWord (word : Word) : toWord (ofWord word) = word := by
  rw [toWord, ofWord, toNat_ofNat (by simpa using word.toUInt32.toNat_lt)]
  simp

/-- The digit for a number below sixteen. -/
def hexDigit (value : Nat) : Char :=
  Nat.digitChar value

/-- Two lower-case digits for each byte. -/
def hex (bytes : List UInt8) : String :=
  String.ofList (bytes.flatMap fun byte =>
    [hexDigit (byte.toNat / 16), hexDigit (byte.toNat % 16)])

end ActorScript.Bytes
