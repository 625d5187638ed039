import MBootCore.Domain.Error
import MBootCore.Support.HexFormat
import Mathlib

/-!
# Cli — Arguments

What `apps/mboot-cli` makes of its arguments: the options of
`CliParser::parseOptions`, and the address and the payload of the `write` and
`verify` commands. A `std::string` is the list of its bytes, as characters;
`unsigned long` has 64 bits.

The numbers go through `std::stoull`, `std::stoul` and `std::stoi`, which skip
blanks, take a sign, and leave the rest of the text unread.
-/

namespace MBootCore

open Digits HexFormat

/-! ## The conversions of the standard library -/

namespace Conversion

inductive Exception where
  | invalid_argument
  | out_of_range
  deriving DecidableEq, Repr

/-- `std::isspace`. -/
def isSpace (c : Char) : Bool := c = ' ' || (9 ≤ c.toNat && c.toNat ≤ 13)

/-- `c_str()`: a C string ends at its first NUL. -/
def cStr (text : List Char) : List Char := text.takeWhile (· ≠ '\x00')

def sign : List Char → Bool × List Char
  | '-' :: rest => (true, rest)
  | '+' :: rest => (false, rest)
  | text => (false, text)

def isDigitOf (base : Nat) (c : Char) : Bool := (digitValue c).any (· < base)

/-- Base 0 is decided by the text. A prefix counts only in front of a digit. -/
def detectBase (base : Nat) : List Char → Nat × List Char
  | '0' :: x :: rest =>
    if (x = 'x' || x = 'X') && (base = 0 || base = 16) && rest.head?.any (isDigitOf 16) then
      (16, rest)
    else (if base = 0 then 8 else base, '0' :: x :: rest)
  | '0' :: rest => (if base = 0 then 8 else base, '0' :: rest)
  | text => (if base = 0 then 10 else base, text)

/-- Sign and magnitude of the number the text starts with. -/
def strto (base : Nat) (text : List Char) : Option (Bool × Nat) :=
  let signed := sign ((cStr text).dropWhile isSpace)
  let based := detectBase base signed.2
  let digits := based.2.takeWhile (isDigitOf based.1)
  if digits = [] then none else (readDigits based.1 0 digits).map (signed.1, ·)

/-- `std::stoull`, and `std::stoul`: a negative number wraps around. -/
def stoull (base : Nat) (text : List Char) : Except Exception UInt64 :=
  match strto base text with
  | none => .error .invalid_argument
  | some (negative, n) =>
    if n < 2 ^ 64 then .ok (if negative then 0 - UInt64.ofNat n else UInt64.ofNat n)
    else .error .out_of_range

def stoi (text : List Char) : Except Exception Int :=
  match strto 10 text with
  | none => .error .invalid_argument
  | some (negative, n) =>
    let value : Int := if negative then -n else n
    if -2 ^ 31 ≤ value ∧ value < 2 ^ 31 then .ok value else .error .out_of_range

end Conversion

open Conversion

/-! ## Options -/

namespace CliParser

structure CliOptions where
  device : List Char := []
  vendor : List Char := []
  transport : List Char := []
  protocol : List Char := []
  partition : List Char := []
  address : UInt64 := 0
  size : UInt64 := 0
  timeoutMs : Int := 5000
  retry : Int := 3
  verbose : Bool := false
  quiet : Bool := false
  json : Bool := false
  xml : Bool := false
  progress : Bool := true
  force : Bool := false
  dryRun : Bool := false
  deriving DecidableEq, Repr

/-- One turn of the loop: `none` for an argument that is no option and stays. -/
def parseOption (opts : CliOptions) (arg : List Char) : Except Exception (Option CliOptions) :=
  if "--device=".toList.isPrefixOf arg then .ok (some { opts with device := arg.drop 9 })
  else if "--vendor=".toList.isPrefixOf arg then .ok (some { opts with vendor := arg.drop 9 })
  else if "--transport=".toList.isPrefixOf arg then
    .ok (some { opts with transport := arg.drop 12 })
  else if "--protocol=".toList.isPrefixOf arg then .ok (some { opts with protocol := arg.drop 11 })
  else if "--partition=".toList.isPrefixOf arg then
    .ok (some { opts with partition := arg.drop 12 })
  else if "--address=".toList.isPrefixOf arg then
    (stoull 10 (arg.drop 10)).map fun v => some { opts with address := v }
  else if "--size=".toList.isPrefixOf arg then
    (stoull 10 (arg.drop 7)).map fun v => some { opts with size := v }
  else if "--timeout=".toList.isPrefixOf arg then
    (stoi (arg.drop 10)).map fun v => some { opts with timeoutMs := v }
  else if "--retry=".toList.isPrefixOf arg then
    (stoi (arg.drop 8)).map fun v => some { opts with retry := v }
  else if arg = "--verbose".toList then .ok (some { opts with verbose := true })
  else if arg = "--quiet".toList then .ok (some { opts with quiet := true })
  else if arg = "--json".toList then .ok (some { opts with json := true })
  else if arg = "--xml".toList then .ok (some { opts with xml := true })
  else if arg = "--no-progress".toList then .ok (some { opts with progress := false })
  else if arg = "--force".toList then .ok (some { opts with force := true })
  else if arg = "--dry-run".toList then .ok (some { opts with dryRun := true })
  else .ok none

/-- The options, and the arguments that stay. -/
def parseOptions (opts : CliOptions) :
    List (List Char) → Except Exception (CliOptions × List (List Char))
  | [] => .ok (opts, [])
  | arg :: args =>
    match parseOption opts arg with
    | .error e => .error e
    | .ok (some opts) => parseOptions opts args
    | .ok none => (parseOptions opts args).map fun r => (r.1, arg :: r.2)

end CliParser

/-! ## Commands -/

namespace CliCommands

inductive DeviceCall where
  | write (address : UInt64) (data : List UInt8)
  | verify (address : UInt64) (expected : List UInt8)
  deriving DecidableEq, Repr

/-- What a command prints, before it is formatted. -/
inductive Report where
  | failed (op : String) (error : ErrorCode) (msg : String)
  | done (op : String) (msg : String)
  deriving DecidableEq, Repr

/-- What the runtime answers to a call, whatever it did before. -/
abbrev Runtime := DeviceCall → Except ErrorCode Unit

/-- The calls a command made, and how it ended. -/
structure CommandRun where
  calls : List DeviceCall := []
  ended : Except Exception Report

def reported (r : Report) : CommandRun := { ended := .ok r }

/-- `getError` without a message gives the code's name. -/
def performed (runtime : Runtime) (call : DeviceCall) (op msg : String) : CommandRun where
  calls := [call]
  ended := match runtime call with
    | .error e => .ok (.failed op e "")
    | .ok () => .ok (.done op msg)

/-- Two characters at a time; one that is left over is not read. -/
def hexBytes : List Char → Except Exception (List UInt8)
  | a :: b :: hex =>
    match stoull 16 [a, b] with
    | .error e => .error e
    | .ok v => (hexBytes hex).map (v.toUInt8 :: ·)
  | _ => .ok []

def decimal (n : Nat) : String := String.ofList (Nat.toDigits 10 n)

def write (runtime : Runtime) : List (List Char) → CommandRun
  | [] => reported (.failed "write" .invalidArgument "Usage: write <address> <hex_data>")
  | address :: args =>
    match stoull 0 address with
    | .error _ => reported (.failed "write" .invalidArgument "Invalid address")
    | .ok addr =>
      match hexBytes (args.headD []) with
      | .error e => { ended := .error e }
      | .ok data => performed runtime (.write addr data) "write"
          ("Wrote " ++ decimal data.length ++ " bytes to 0x" ++ decimal addr.toNat)

def verify (runtime : Runtime) : List (List Char) → CommandRun
  | address :: hex :: _ =>
    match stoull 0 address with
    | .error _ => reported (.failed "verify" .invalidArgument "Invalid address")
    | .ok addr =>
      match hexBytes hex with
      | .error e => { ended := .error e }
      | .ok expected => performed runtime (.verify addr expected) "verify" "Verification passed"
  | _ => reported (.failed "verify" .invalidArgument "Usage: verify <address> <expected_hex>")

end CliCommands

/-! ## What the arguments say -/

/-- The value of a text that is nothing but digits and fits in 64 bits. -/
def numeral (base : Nat) (text : List Char) : Option UInt64 :=
  if text = [] then none
  else (readDigits base 0 text).bind fun n => if n < 2 ^ 64 then some (UInt64.ofNat n) else none

/-- An address is hexadecimal behind 0x, and decimal otherwise. -/
def addressValue : List Char → Option UInt64
  | '0' :: 'x' :: digits => numeral 16 digits
  | text => numeral 10 text

def sizeValue (text : List Char) : Option UInt64 := numeral 10 text

/-- The bytes of an even number of hexadecimal digits. -/
def payloadBytes : List Char → Option (List UInt8)
  | [] => some []
  | [_] => none
  | a :: b :: hex =>
    match HexFormat.hexDigit a, HexFormat.hexDigit b with
    | some high, some low => (payloadBytes hex).map (UInt8.ofNat (16 * high + low) :: ·)
    | _, _ => none

/-- Neither an exception nor an option. -/
def CliParser.Rejected (r : Except Exception (Option CliOptions)) : Prop :=
  (∀ e, r ≠ .error e) ∧ ∀ opts, r ≠ .ok (some opts)

/-- The argument sets the option to its value, or is rejected without a value. -/
def CliParser.Sets (r : Except Exception (Option CliOptions)) (set : UInt64 → CliOptions) :
    Option UInt64 → Prop
  | some v => r = .ok (some (set v))
  | none => Rejected r

/-- The runtime is given the bytes, or nothing, and then the argument is reported. -/
def CliCommands.Passes (r : CommandRun) (call : List UInt8 → DeviceCall) :
    Option (List UInt8) → Prop
  | some data => r.calls = [call data]
  | none => r.calls = [] ∧ ∃ op msg, r.ended = .ok (.failed op .invalidArgument msg)

/-- A command with an address that can be read; without one it is reported. -/
def CliCommands.Means (r : CommandRun) (call : UInt64 → List UInt8 → DeviceCall)
    (address payload : List Char) : Prop :=
  match stoull 0 address with
  | .ok addr => Passes r (call addr) (payloadBytes payload)
  | .error _ => r.calls = [] ∧ ∃ op msg, r.ended = .ok (.failed op .invalidArgument msg)

/-- An even number of hexadecimal digits. -/
def HexPayload (payload : List Char) : Prop :=
  payload.length % 2 = 0 ∧ ∀ c ∈ payload, isHex c = true

/-! ## Texts of digits -/

namespace Conversion

variable {base : Nat} {text : List Char}

/-- What is skipped or taken in front of digits is no digit itself. -/
theorem digitValue_eq_none {c : Char}
    (h : c = '\x00' ∨ isSpace c = true ∨ c = '-' ∨ c = '+') : digitValue c = none := by
  have hle : ∀ a b : Char, a ≤ b ↔ a.toNat ≤ b.toNat := fun _ _ => UInt32.le_iff_toNat_le
  have hlow : c.toNat < 48 := by
    rcases h with rfl | hspace | rfl | rfl
    · decide
    · simp only [isSpace, Bool.or_eq_true, Bool.and_eq_true, decide_eq_true_eq] at hspace
      rcases hspace with rfl | hspace
      · decide
      · omega
    · decide
    · decide
  simp only [digitValue, hle, Char.reduceToNat]
  rw [if_neg (by omega), if_neg (by omega), if_neg (by omega)]

theorem ne_of_isDigitOf {c : Char} (h : isDigitOf base c = true) :
    c ≠ '\x00' ∧ isSpace c = false ∧ c ≠ '-' ∧ c ≠ '+' := by
  have hsome : ¬ (c = '\x00' ∨ isSpace c = true ∨ c = '-' ∨ c = '+') := by
    intro hnone
    rw [isDigitOf, digitValue_eq_none hnone] at h
    cases h
  rw [not_or, not_or, not_or, Bool.not_eq_true] at hsome
  exact hsome

theorem isSome_readDigits (base acc : Nat) (text : List Char) :
    (readDigits base acc text).isSome ↔ ∀ c ∈ text, isDigitOf base c = true := by
  induction text generalizing acc with
  | nil => simp [readDigits]
  | cons c text ih =>
    rw [List.forall_mem_cons, isDigitOf, readDigits]
    cases digitValue c with
    | none => simp
    | some d =>
      by_cases hd : d < base
      · simp [hd, ih]
      · simp [hd]

theorem detectBase_digits (hbase : base ≠ 0) (hsmall : base ≤ 33)
    (hdigits : ∀ c ∈ text, isDigitOf base c = true) : detectBase base text = (base, text) := by
  have hx : ∀ x : Char, (x = 'x' || x = 'X') = true → isDigitOf base x = false := by
    intro x hx
    have hvalue : digitValue x = some 33 := by
      rcases Bool.or_eq_true _ _ ▸ hx with h | h
      · rw [of_decide_eq_true h]
        rfl
      · rw [of_decide_eq_true h]
        rfl
    rw [isDigitOf, hvalue]
    exact decide_eq_false (Nat.not_lt.mpr hsmall)
  unfold detectBase
  split
  · rename_i x rest
    have hno : (x = 'x' || x = 'X') = false := by
      by_contra h
      rw [Bool.not_eq_false] at h
      exact absurd (hdigits x (by simp)) (by rw [hx x h]; decide)
    rw [hno, if_neg hbase]
    rfl
  · rw [if_neg hbase]
  · rw [if_neg hbase]

/-- Nothing is skipped in front of a text of digits, and all of it is read. -/
theorem strto_digits (hbase : base ≠ 0) (hsmall : base ≤ 33) (htext : text ≠ [])
    (hdigits : ∀ c ∈ text, isDigitOf base c = true) :
    strto base text = (readDigits base 0 text).map (false, ·) := by
  have hcStr : cStr text = text := by
    rw [cStr, List.takeWhile_eq_self_iff]
    intro c hc
    exact decide_eq_true (ne_of_isDigitOf (hdigits c hc)).1
  have hspace : text.dropWhile isSpace = text := by
    cases text with
    | nil => rfl
    | cons c text => rw [List.dropWhile_cons_of_neg (by
        simp [(ne_of_isDigitOf (hdigits c List.mem_cons_self)).2.1])]
  have hsign : sign text = (false, text) := by
    cases text with
    | nil => rfl
    | cons c text =>
      obtain ⟨-, -, hminus, hplus⟩ := ne_of_isDigitOf (hdigits c List.mem_cons_self)
      simp [sign, hminus, hplus]
  have hrun : text.takeWhile (isDigitOf base) = text := List.takeWhile_eq_self_iff.mpr hdigits
  rw [strto, hcStr, hspace, hsign]
  dsimp only
  rw [detectBase_digits hbase hsmall hdigits]
  dsimp only
  rw [hrun, if_neg htext]

/-- A text that is a number and fits is read as that number. -/
theorem stoull_of_numeral (hbase : base ≠ 0) (hsmall : base ≤ 33) {v : UInt64}
    (h : numeral base text = some v) : stoull base text = .ok v := by
  rw [numeral] at h
  split at h
  · cases h
  · rename_i htext
    obtain ⟨n, hn, hfits⟩ := Option.bind_eq_some_iff.mp h
    have hdigits : ∀ c ∈ text, isDigitOf base c = true := by
      rw [← isSome_readDigits base 0, hn]
      rfl
    have hstrto : strto base text = some (false, n) := by
      rw [strto_digits hbase hsmall htext hdigits, hn, Option.map_some]
    split at hfits
    · rename_i hlt
      rw [stoull, hstrto]
      dsimp only
      rw [if_pos hlt]
      exact congrArg Except.ok (Option.some.inj hfits)
    · cases hfits

end Conversion

/-! ## Payloads -/

namespace CliCommands

theorem digitValue_of_hexDigit {c : Char} {d : Nat} (h : HexFormat.hexDigit c = some d) :
    digitValue c = some d ∧ d < 16 := by
  obtain ⟨hvalue, hd⟩ := Option.filter_eq_some_iff.mp h
  exact ⟨hvalue, of_decide_eq_true hd⟩

theorem stoull_pair {a b : Char} {high low : Nat} (ha : HexFormat.hexDigit a = some high)
    (hb : HexFormat.hexDigit b = some low) :
    stoull 16 [a, b] = .ok (UInt64.ofNat (16 * high + low)) := by
  obtain ⟨ha, hhigh⟩ := digitValue_of_hexDigit ha
  obtain ⟨hb, hlow⟩ := digitValue_of_hexDigit hb
  apply stoull_of_numeral (by decide) (by decide)
  have hread : readDigits 16 0 [a, b] = some (high * 16 + low) := by
    simp [readDigits, ha, hb, hhigh, hlow]
  have hfits : high * 16 + low < 2 ^ 64 := by omega
  rw [numeral, if_neg (List.cons_ne_nil _ _), hread, Option.bind_some, if_pos hfits, Nat.mul_comm]

/-- A pair of the payload that denotes a byte. -/
theorem exists_pair {a b : Char} {hex : List Char} {data : List UInt8}
    (h : payloadBytes (a :: b :: hex) = some data) :
    ∃ high low bytes, HexFormat.hexDigit a = some high ∧ HexFormat.hexDigit b = some low ∧
      payloadBytes hex = some bytes ∧ data = UInt8.ofNat (16 * high + low) :: bytes := by
  rw [payloadBytes] at h
  split at h
  · rename_i high low ha hb
    obtain ⟨bytes, hbytes, hdata⟩ := Option.map_eq_some_iff.mp h
    exact ⟨high, low, bytes, ha, hb, hbytes, hdata.symm⟩
  · cases h

/-- Bytes that are denoted are the bytes that are read. -/
theorem hexBytes_of_payloadBytes {payload : List Char} {data : List UInt8}
    (h : payloadBytes payload = some data) : hexBytes payload = .ok data := by
  match payload, h with
  | [], h =>
    injection h with h
    rw [← h]
    rfl
  | [c], h => cases h
  | a :: b :: hex, h =>
    obtain ⟨high, low, bytes, ha, hb, hbytes, rfl⟩ := exists_pair h
    have hbyte : (UInt64.ofNat (16 * high + low)).toUInt8 = UInt8.ofNat (16 * high + low) := by
      simp
    rw [hexBytes, stoull_pair ha hb]
    dsimp only
    rw [hexBytes_of_payloadBytes hbytes, hbyte]
    rfl

/-- Just the even texts of hexadecimal digits denote bytes. -/
theorem isSome_payloadBytes (payload : List Char) :
    (payloadBytes payload).isSome ↔ HexPayload payload := by
  match payload with
  | [] => simp [payloadBytes, HexPayload]
  | [c] => simp [payloadBytes, HexPayload]
  | a :: b :: hex =>
    have ih := isSome_payloadBytes hex
    have hpayload : HexPayload (a :: b :: hex) ↔
        (isHex a = true ∧ isHex b = true) ∧ HexPayload hex := by
      simp only [HexPayload, List.length_cons, List.forall_mem_cons]
      constructor
      · rintro ⟨hlength, ha, hb, hhex⟩
        exact ⟨⟨ha, hb⟩, by omega, hhex⟩
      · rintro ⟨⟨ha, hb⟩, hlength, hhex⟩
        exact ⟨by omega, ha, hb, hhex⟩
    rw [hpayload, ← ih, payloadBytes, isHex, isHex]
    cases HexFormat.hexDigit a with
    | none => simp
    | some high =>
      cases HexFormat.hexDigit b with
      | none => simp
      | some low => simp

/-- A command does what its arguments say exactly when the address is refused, or
the payload denotes bytes. -/
theorem means_iff {run : CommandRun} {call : UInt64 → List UInt8 → DeviceCall}
    {address payload : List Char}
    (hrefused : ∀ e, stoull 0 address = .error e →
      run.calls = [] ∧ ∃ op msg, run.ended = .ok (.failed op .invalidArgument msg))
    (hthrown : ∀ addr e, stoull 0 address = .ok addr → hexBytes payload = .error e →
      run.ended = .error e)
    (hread : ∀ addr data, stoull 0 address = .ok addr → hexBytes payload = .ok data →
      run.calls = [call addr data]) :
    Means run call address payload ↔
      (∃ e, stoull 0 address = .error e) ∨ HexPayload payload := by
  rw [Means]
  cases haddress : stoull 0 address with
  | error e =>
    constructor
    · intro _
      exact .inl ⟨e, rfl⟩
    · intro _
      exact hrefused e haddress
  | ok addr =>
    dsimp only
    rw [← isSome_payloadBytes]
    cases hpayload : payloadBytes payload with
    | some data =>
      constructor
      · intro _
        exact .inr rfl
      · intro _
        exact hread addr data haddress (hexBytes_of_payloadBytes hpayload)
    | none =>
      constructor
      · rintro ⟨hcalls, op, msg, hended⟩
        exfalso
        cases hbytes : hexBytes payload with
        | error e =>
          rw [hthrown addr e haddress hbytes] at hended
          cases hended
        | ok data =>
          rw [hread addr data haddress hbytes] at hcalls
          cases hcalls
      · rintro (⟨e, he⟩ | hsome)
        · cases he
        · cases hsome

theorem write_means_iff (runtime : Runtime) (address payload : List Char)
    (rest : List (List Char)) :
    Means (write runtime (address :: payload :: rest)) .write address payload ↔
      (∃ e, stoull 0 address = .error e) ∨ HexPayload payload := by
  apply means_iff
  · intro e he
    rw [write, he]
    exact ⟨rfl, _, _, rfl⟩
  · intro addr e haddress hbytes
    simp [write, haddress, hbytes]
  · intro addr data haddress hbytes
    simp [write, haddress, hbytes, performed]

theorem verify_means_iff (runtime : Runtime) (address payload : List Char)
    (rest : List (List Char)) :
    Means (verify runtime (address :: payload :: rest)) .verify address payload ↔
      (∃ e, stoull 0 address = .error e) ∨ HexPayload payload := by
  apply means_iff
  · intro e he
    rw [verify, he]
    exact ⟨rfl, _, _, rfl⟩
  · intro addr e haddress hbytes
    simp [verify, haddress, hbytes]
  · intro addr data haddress hbytes
    simp [verify, haddress, hbytes, performed]

end CliCommands

/-! ## What stays -/

namespace CliParser

theorem ok_ne_none (opts : CliOptions) :
    (.ok (some opts) : Except Exception (Option CliOptions)) ≠ .ok none := by simp

theorem map_ne_none {α : Type} (r : Except Exception α) (set : α → CliOptions) :
    (r.map fun v => some (set v)) ≠ .ok none := by
  cases r <;> simp [Except.map]

theorem ite_none_iff {c : Prop} [Decidable c] {found found' rest rest' :
    Except Exception (Option CliOptions)} (hfound : found ≠ .ok none) (hfound' : found' ≠ .ok none)
    (hrest : rest = .ok none ↔ rest' = .ok none) :
    (if c then found else rest) = .ok none ↔ (if c then found' else rest') = .ok none := by
  by_cases hc : c
  · rw [if_pos hc, if_pos hc]
    exact iff_of_false hfound hfound'
  · rw [if_neg hc, if_neg hc]
    exact hrest

/-- Whether an argument is an option is for itself to say. -/
theorem parseOption_none (opts opts' : CliOptions) (arg : List Char) :
    parseOption opts arg = .ok none ↔ parseOption opts' arg = .ok none := by
  unfold parseOption
  repeat' apply ite_none_iff
  all_goals first
    | exact ok_ne_none _
    | exact map_ne_none _ _
    | exact Iff.rfl

/-- No option, whatever was set before. -/
def Stays (arg : List Char) : Bool :=
  match parseOption {} arg with
  | .ok none => true
  | _ => false

theorem stays_iff (opts : CliOptions) (arg : List Char) :
    Stays arg = true ↔ parseOption opts arg = .ok none := by
  rw [parseOption_none opts {}, Stays]
  split
  · exact iff_of_true rfl ‹_›
  · exact iff_of_false Bool.false_ne_true ‹_›

/-- The arguments that stay are those that are no options, in their order. -/
theorem parseOptions_rest {opts opts' : CliOptions} {args rest : List (List Char)}
    (h : parseOptions opts args = .ok (opts', rest)) : rest = args.filter Stays := by
  induction args generalizing opts rest with
  | nil =>
    cases h
    rfl
  | cons arg args ih =>
    rw [parseOptions] at h
    split at h
    · cases h
    · rename_i set hset
      have hoption : ¬ Stays arg = true := by
        rw [stays_iff opts, hset]
        exact ok_ne_none set
      rw [List.filter_cons_of_neg hoption]
      exact ih h
    · rename_i hnone
      cases hrest : parseOptions opts args with
      | error e =>
        rw [hrest] at h
        cases h
      | ok r =>
        rw [hrest] at h
        cases h
        rw [List.filter_cons_of_pos ((stays_iff opts arg).mpr hnone), ih hrest]

/-- Parsing what stays once more changes nothing. -/
theorem parseOptions_again {opts opts' : CliOptions} {args rest : List (List Char)}
    (h : parseOptions opts args = .ok (opts', rest)) (again : CliOptions) :
    parseOptions again rest = .ok (again, rest) := by
  have hstays : ∀ arg ∈ rest, Stays arg = true := by
    rw [parseOptions_rest h]
    exact fun arg harg => (List.mem_filter.mp harg).2
  clear h
  induction rest with
  | nil => rfl
  | cons arg rest ih =>
    obtain ⟨hfirst, hrest⟩ := List.forall_mem_cons.mp hstays
    rw [parseOptions, (stays_iff again arg).mp hfirst]
    dsimp only
    rw [ih hrest]
    rfl

end CliParser

/-! ## Options that are numbers -/

namespace CliParser

/-- Hexadecimal zeros, the only hexadecimal addresses that a decimal reader gets right. -/
def ZeroHex (value : List Char) : Prop :=
  ∃ zeros, value = '0' :: 'x' :: zeros ∧ zeros ≠ [] ∧ ∀ c ∈ zeros, c = '0'

theorem parseOption_address (opts : CliOptions) (value : List Char) :
    parseOption opts ("--address=".toList ++ value)
      = (stoull 10 value).map fun v => some { opts with address := v } := rfl

theorem parseOption_size (opts : CliOptions) (value : List Char) :
    parseOption opts ("--size=".toList ++ value)
      = (stoull 10 value).map fun v => some { opts with size := v } := rfl

/-- A number is read or it throws, but nothing is rejected. -/
theorem not_rejected (r : Except Exception UInt64) (set : UInt64 → CliOptions) :
    ¬ Rejected (r.map fun v => some (set v)) := by
  rintro ⟨hthrown, hset⟩
  cases r with
  | error e => exact hthrown e rfl
  | ok v => exact hset (set v) rfl

theorem sets_iff {r : Except Exception UInt64} {set : UInt64 → CliOptions}
    (hset : ∀ v w, set v = set w → v = w) (value : Option UInt64) :
    Sets (r.map fun v => some (set v)) set value ↔ ∃ v, value = some v ∧ r = .ok v := by
  cases value with
  | none =>
    constructor
    · intro h
      exact absurd h (not_rejected r set)
    · rintro ⟨v, hv, -⟩
      cases hv
  | some v =>
    constructor
    · intro h
      refine ⟨v, rfl, ?_⟩
      cases r with
      | error e => cases h
      | ok w =>
        have hw : some (set w) = some (set v) := Except.ok.inj h
        rw [hset w v (Option.some.inj hw)]
    · rintro ⟨w, hw, rfl⟩
      rw [Option.some.inj hw]
      rfl

theorem size_sets_iff (opts : CliOptions) (value : List Char) :
    Sets (parseOption opts ("--size=".toList ++ value)) (fun v => { opts with size := v })
      (sizeValue value) ↔ (numeral 10 value).isSome := by
  have hset : ∀ v w : UInt64, { opts with size := v } = { opts with size := w } → v = w := by
    intro v w h
    exact congrArg CliOptions.size h
  rw [parseOption_size, sets_iff hset, Option.isSome_iff_exists, sizeValue]
  constructor
  · rintro ⟨v, hv, -⟩
    exact ⟨v, hv⟩
  · rintro ⟨v, hv⟩
    exact ⟨v, hv, stoull_of_numeral (by decide) (by decide) hv⟩

/-- The decimal reader stops at the x. -/
theorem stoull_hex (digits : List Char) : stoull 10 ('0' :: 'x' :: digits) = .ok 0 := by
  have hstrto : strto 10 ('0' :: 'x' :: digits) = some (false, 0) := rfl
  rw [stoull, hstrto]
  rfl

theorem digitValue_eq_zero {c : Char} (h : digitValue c = some 0) : c = '0' := by
  have hle : ∀ a b : Char, a ≤ b ↔ a.toNat ≤ b.toNat := fun _ _ => UInt32.le_iff_toNat_le
  simp only [digitValue, hle, Char.reduceToNat] at h
  split at h
  · rename_i hdecimal
    have hzero := Option.some.inj h
    have hcode : c.toNat = '0'.toNat := by
      show c.toNat = 48
      omega
    exact Char.toNat_inj.mp hcode
  · split at h
    · exact absurd (Option.some.inj h) (by omega)
    · split at h
      · exact absurd (Option.some.inj h) (by omega)
      · cases h

theorem le_readDigits {acc n : Nat} {digits : List Char} (h : readDigits 16 acc digits = some n) :
    acc ≤ n := by
  induction digits generalizing acc with
  | nil => exact le_of_eq (Option.some.inj h)
  | cons c digits ih =>
    rw [readDigits] at h
    split at h
    · cases h
    · split at h
      · have := ih h
        omega
      · cases h

theorem readDigits_eq_zero {digits : List Char} :
    readDigits 16 0 digits = some 0 ↔ ∀ c ∈ digits, c = '0' := by
  induction digits with
  | nil => simp [readDigits]
  | cons c digits ih =>
    rw [List.forall_mem_cons, ← ih]
    constructor
    · intro h
      rw [readDigits] at h
      split at h
      · cases h
      · rename_i d hd
        split at h
        · have hzero := le_readDigits h
          obtain rfl : d = 0 := by omega
          exact ⟨digitValue_eq_zero hd, h⟩
        · cases h
    · rintro ⟨rfl, h⟩
      exact h

theorem numeral_hex_zero_iff {digits : List Char} :
    numeral 16 digits = some 0 ↔ digits ≠ [] ∧ ∀ c ∈ digits, c = '0' := by
  rw [← readDigits_eq_zero, numeral]
  by_cases hdigits : digits = []
  · simp [hdigits]
  rw [if_neg hdigits]
  constructor
  · intro h
    obtain ⟨n, hn, hfits⟩ := Option.bind_eq_some_iff.mp h
    split at hfits
    · rename_i hlt
      have hmod : n % 2 ^ 64 = 0 := congrArg UInt64.toNat (Option.some.inj hfits)
      rw [Nat.mod_eq_of_lt hlt] at hmod
      exact ⟨hdigits, hmod ▸ hn⟩
    · cases hfits
  · rintro ⟨-, h⟩
    rw [h]
    rfl

theorem address_sets_iff (opts : CliOptions) (value : List Char) :
    Sets (parseOption opts ("--address=".toList ++ value)) (fun v => { opts with address := v })
      (addressValue value) ↔ (numeral 10 value).isSome ∨ ZeroHex value := by
  have hset : ∀ v w : UInt64, { opts with address := v } = { opts with address := w } → v = w := by
    intro v w h
    exact congrArg CliOptions.address h
  rw [parseOption_address, sets_iff hset, Option.isSome_iff_exists]
  unfold addressValue
  split
  · rename_i digits
    have hdecimal : numeral 10 ('0' :: 'x' :: digits) = none := rfl
    constructor
    · rintro ⟨v, hv, hread⟩
      rw [stoull_hex] at hread
      obtain rfl := Except.ok.inj hread
      obtain ⟨hdigits, hzeros⟩ := numeral_hex_zero_iff.mp hv
      exact .inr ⟨digits, rfl, hdigits, hzeros⟩
    · rintro (⟨v, hv⟩ | ⟨zeros, hvalue, hzeros, hall⟩)
      · rw [hdecimal] at hv
        cases hv
      · injection hvalue with _ hvalue
        injection hvalue with _ hvalue
        subst hvalue
        exact ⟨0, numeral_hex_zero_iff.mpr ⟨hzeros, hall⟩, stoull_hex digits⟩
  · rename_i hother
    constructor
    · rintro ⟨v, hv, -⟩
      exact .inl ⟨v, hv⟩
    · rintro (⟨v, hv⟩ | ⟨zeros, hvalue, -, -⟩)
      · exact ⟨v, hv, stoull_of_numeral (by decide) (by decide) hv⟩
      · exact absurd hvalue (hother zeros)

end CliParser

/-- The commands do what their arguments say for payloads that denote bytes, and the
options for decimal numerals that fit; of the hexadecimal addresses only zero is read. -/
theorem CliParser.arguments_iff (runtime : CliCommands.Runtime) (address payload : List Char)
    (rest : List (List Char)) (opts : CliParser.CliOptions) (value : List Char) :
    (CliCommands.Means (CliCommands.write runtime (address :: payload :: rest)) .write
      address payload ↔
      (∃ e, stoull 0 address = .error e) ∨ HexPayload payload) ∧
    (CliCommands.Means (CliCommands.verify runtime (address :: payload :: rest)) .verify
      address payload ↔
      (∃ e, stoull 0 address = .error e) ∨ HexPayload payload) ∧
    (CliParser.Sets (CliParser.parseOption opts ("--address=".toList ++ value))
      (fun v => { opts with address := v }) (addressValue value) ↔
        (numeral 10 value).isSome ∨ CliParser.ZeroHex value) ∧
    (CliParser.Sets (CliParser.parseOption opts ("--size=".toList ++ value))
      (fun v => { opts with size := v }) (sizeValue value) ↔ (numeral 10 value).isSome) :=
  ⟨CliCommands.write_means_iff runtime address payload rest,
    CliCommands.verify_means_iff runtime address payload rest,
    CliParser.address_sets_iff opts value, CliParser.size_sets_iff opts value⟩

end MBootCore
