import Ezilla.Lib.LogRatio
import Ezilla.Lib.PrefixMask
import Ezilla.Vnm.LeaseAddress
import Mathlib.Data.List.TakeWhile
import Mathlib.Data.Nat.Log

/-!
# The range of a ranged network

The template of a ranged network gives its addresses in one of five ways: a first MAC address
and a size, two ends, or a network address with a prefix, a mask or a size, and then the ends
may be left out.

* `RangedLeases.processTemplate`: what the source reads;
* `RangedLeases.AsWritten`: what the template says;
* `RangedLeases.asWritten_iff`: the templates that are read as they are written.
-/

namespace Ezilla

/-- The errors of `process_template`, with what their texts name. -/
inductive RangeError where
  /-- MAC_START mac is not a valid MAC. -/
  | macStart (mac : String)
  /-- IP_START ip is not a valid IP. -/
  | ipStart (ip : String)
  /-- IP_END ip is not a valid IP. -/
  | ipEnd (ip : String)
  /-- NETWORK_ADDRESS addr is not a base address for the network mask mask. -/
  | notBaseAddr (addr mask : String)
  /-- NETWORK_ADDRESS addr is not a valid IP. -/
  | netAddr (addr : String)
  /-- NETWORK_MASK mask is not a valid network mask. -/
  | netmask (mask : String)
  /-- A CIDR prefix of n bits is not valid. -/
  | cidrPrefix (bits : Nat)
  /-- No NETWORK_ADDRESS in template for Virtual Network. -/
  | addr
  /-- IP_START ip is not part of the network addr/bits. -/
  | rangeIpStart (ip addr : String) (bits : Nat)
  /-- NETWORK_SIZE is not an integer number. -/
  | size
  /-- IP_END ip is not part of the network addr/bits. -/
  | rangeIpEnd (ip addr : String) (bits : Nat)
  /-- IP_START start cannot be greater than the IP_END end. -/
  | greater (ipStart ipEnd : String)
  /-- Size too big, it will overflow MAC address space. -/
  | greaterMac
  deriving DecidableEq, Repr

namespace RangedLeases

/-! ## The source

`log` is the logarithm of the mathematical library, and `defaultSize` the NETWORK_SIZE of the
configuration. -/

section Source

variable (log : Nat → ℚ) (defaultSize : Int)

/-- `(int) ceil(log(size+2)/log(2))`, where `size+2` is a word. The logarithm of 0 is below every
number, and is converted to the least int. -/
def logBits (size : Nat) : Nat :=
  let n := (size + 2) % 2 ^ 32
  if n = 0 then 2 ^ 31 else (⌈Binary64.nearest (log n / log 2)⌉ % 2 ^ 32).toNat

/-- `get_template_size`: the host bits and the size, `none` for its error. -/
def getTemplateSize (tmpl : Template) : Option (Nat × Nat) :=
  let stSize := tmpl.getString "NETWORK_SIZE"
  if stSize = "C" ∨ stSize = "c" then some (8, 256)
  else if stSize = "B" ∨ stSize = "b" then some (16, 65536)
  else if stSize = "A" ∨ stSize = "a" then some (24, 16777216)
  else
    let size? := if stSize ≠ "" then readUnsigned stSize else some (defaultSize % 2 ^ 32).toNat
    size?.map fun size => (logBits log size, size)

/-- The definition by MAC_START and NETWORK_SIZE. -/
def macRange (tmpl : Template) (stMacStart : String) :
    Except RangeError (Nat × Nat × Template) :=
  match macToNumber stMacStart with
  | none => .error (.macStart stMacStart)
  | some mac =>
    match getTemplateSize log defaultSize tmpl with
    | none => .error .size
    | some (_, size) =>
      let ipEnd := (mac.2 + size) % 2 ^ 32
      if ipEnd < mac.2 then .error .greaterMac
      else
        .ok (mac.2, ipEnd, (((((tmpl.erase "MAC_START").erase "IP_START").erase "IP_END").erase
          "NETWORK_ADDRESS").erase "NETWORK_MASK").erase "NETWORK_SIZE")

/-- An end of the range, 0 if it is not given. -/
def readEnd (text : String) : Option Nat := if text = "" then some 0 else ipToNumber text

/-- The definition by two ends. -/
def manualRange (ipStart ipEnd : Nat) (tmpl : Template) :
    Except RangeError (Nat × Nat × Template) :=
  if ipStart ≠ 0 ∧ ipEnd ≠ 0 then
    if ipEnd < ipStart then .error (.greater (ipToString ipStart) (ipToString ipEnd))
    else .ok (ipStart, ipEnd, tmpl)
  else
    .error .addr

/-- The address and the prefix of a network address in CIDR notation. -/
def splitAddress (stAddr : String) : String × Option String :=
  if '/' ∈ stAddr.toList then
    (String.ofList (stAddr.toList.takeWhile (· ≠ '/')),
      some (String.ofList (stAddr.toList.dropWhile (· ≠ '/')).tail))
  else
    (stAddr, none)

/-- `iss >> network_bits`. The stream is not tested: the variable becomes 0 or the largest
number when the text has none that fits, and is not initialised when there is no text. -/
def readNetworkBits (text : String) : Option Nat :=
  if skipBlanks text.toList = [] then none
  else some ((IStream.ofText text.toList).readUnsigned false 0).1

/-- The loop that counts the trailing zeros of a mask; `n` bits are left. -/
def maskHostBits (netMask : Nat) : Nat → Nat → Nat
  | 0, hostBits => hostBits
  | n + 1, hostBits =>
    if (netMask >>> hostBits) &&& 1 ≠ 1 then maskHostBits netMask n (hostBits + 1) else hostBits

/-- The host bits of a network with an address: from the prefix, the mask or the size. -/
def hostBits (tmpl : Template) (prefix? : Option String) : Option (Except RangeError Nat) :=
  match prefix? with
  | some text =>
    (readNetworkBits text).map fun bits =>
      if bits > 32 then .error (.cidrPrefix bits) else .ok (32 - bits)
  | none =>
    let stMask := tmpl.getString "NETWORK_MASK"
    if stMask ≠ "" then
      match ipToNumber stMask with
      | none => some (.error (.netmask stMask))
      | some netMask => some (.ok (maskHostBits netMask 32 0))
    else
      match getTemplateSize log defaultSize tmpl with
      | none => some (.error .size)
      | some (bits, _) => some (.ok bits)

/-- The start of the range, the first address after the network address by default. -/
def startOf (netAddr ipStart : Nat) : Nat :=
  if ipStart = 0 then (netAddr + 1) % 2 ^ 32 else ipStart

/-- The end of the range, the last address before the broadcast address by default. -/
def endOf (bits netAddr ipEnd : Nat) : Nat :=
  if ipEnd = 0 then (netAddr + 2 ^ bits + (2 ^ 32 - 2)) % 2 ^ 32 else ipEnd

/-- The checks of the network address and the range. -/
def checkRange (bits : Nat) (stAddr stIpStart stIpEnd : String) (ipStart ipEnd : Nat) :
    Except RangeError (Nat × Nat) :=
  let netMask := PrefixMask.mask 32 bits
  match ipToNumber stAddr with
  | none => .error (.netAddr stAddr)
  | some netAddr =>
    if netAddr ≠ netMask &&& netAddr then .error (.notBaseAddr stAddr (ipToString netMask))
    else
      let ipStart := startOf netAddr ipStart
      let ipEnd := endOf bits netAddr ipEnd
      if netMask &&& ipStart ≠ netAddr then .error (.rangeIpStart stIpStart stAddr (32 - bits))
      else if netMask &&& ipEnd ≠ netAddr then .error (.rangeIpEnd stIpEnd stAddr (32 - bits))
      else if ipEnd < ipStart then .error (.greater (ipToString ipStart) (ipToString ipEnd))
      else .ok (ipStart, ipEnd)

/-- The definition by a network address. A word that is shifted by its whole width is
undefined. -/
def networkRange (tmpl : Template) (ipStart ipEnd : Nat) :
    Option (Except RangeError (Nat × Nat × Template)) :=
  let address := splitAddress (tmpl.getString "NETWORK_ADDRESS")
  match hostBits log defaultSize tmpl address.2 with
  | none => none
  | some (.error e) => some (.error e)
  | some (.ok bits) =>
    if 32 ≤ bits then none
    else
      some ((checkRange bits address.1 (tmpl.getString "IP_START") (tmpl.getString "IP_END") ipStart
        ipEnd).map fun range => (range.1, range.2,
          ((((tmpl.erase "MAC_START").erase "IP_START").erase "IP_END").erase
            "NETWORK_SIZE").replace "NETWORK_MASK" (ipToString (PrefixMask.mask 32 bits))))

/-- `RangedLeases::process_template`: the ends of the range and the template after it; `none`
stands for undefined behaviour. -/
def processTemplate (tmpl : Template) : Option (Except RangeError (Nat × Nat × Template)) :=
  let stMacStart := tmpl.getString "MAC_START"
  if stMacStart ≠ "" then some (macRange log defaultSize tmpl stMacStart)
  else
    let stIpStart := tmpl.getString "IP_START"
    let stIpEnd := tmpl.getString "IP_END"
    match readEnd stIpStart, readEnd stIpEnd with
    | none, _ => some (.error (.ipStart stIpStart))
    | some _, none => some (.error (.ipEnd stIpEnd))
    | some ipStart, some ipEnd =>
      if tmpl.getString "NETWORK_ADDRESS" = "" then
        some (manualRange ipStart ipEnd (((tmpl.erase "MAC_START").erase "IP_START").erase "IP_END"))
      else
        networkRange log defaultSize tmpl ipStart ipEnd

end Source

/-! ## What the template says -/

/-- The host bits of the classes of networks. -/
def classBits (stSize : String) : Option Nat :=
  if stSize = "C" ∨ stSize = "c" then some 8
  else if stSize = "B" ∨ stSize = "b" then some 16
  else if stSize = "A" ∨ stSize = "a" then some 24
  else none

/-- The size as it is written: of a class, a positive number, or the default. -/
def writtenSize (defaultSize : Int) (stSize : String) : Option Nat :=
  match classBits stSize with
  | some bits => some (2 ^ bits)
  | none =>
    if stSize = "" then some (defaultSize % 2 ^ 32).toNat
    else (numberOf stSize).bind fun n => if 0 < n then some n.toNat else none

/-- A network of a size has so many host bits: those of its class, or the fewest for the size
and two addresses more. -/
def SizeBits (defaultSize : Int) (stSize : String) (bits : Nat) : Prop :=
  match classBits stSize with
  | some classBits => bits = classBits
  | none => ∃ n, writtenSize defaultSize stSize = some n ∧ bits = Nat.clog 2 (n + 2)

/-- A network has so many host bits as it is written: by a prefix from 0 to 32, a contiguous
mask or a size. -/
def WrittenBits (defaultSize : Int) (tmpl : Template) (bits : Nat) : Prop :=
  bits ≤ 32 ∧
    match (splitAddress (tmpl.getString "NETWORK_ADDRESS")).2 with
    | some text => ∃ p : Nat, numberOf text = some (p : Int) ∧ p + bits = 32
    | none =>
      if tmpl.getString "NETWORK_MASK" ≠ "" then
        ipToNumber (tmpl.getString "NETWORK_MASK") = some (2 ^ 32 - 2 ^ bits)
      else
        SizeBits defaultSize (tmpl.getString "NETWORK_SIZE") bits

/-- No attribute is written wrongly: the prefix is a number from 0 to 32, the mask is contiguous,
and the size is of a class or a positive number. -/
structure ProperlyWritten (tmpl : Template) : Prop where
  number : ∀ text, (splitAddress (tmpl.getString "NETWORK_ADDRESS")).2 = some text →
    ∃ p : Nat, numberOf text = some (p : Int) ∧ p ≤ 32
  mask : tmpl.getString "NETWORK_MASK" ≠ "" →
    ∃ bits ≤ 32, ipToNumber (tmpl.getString "NETWORK_MASK") = some (2 ^ 32 - 2 ^ bits)
  size : tmpl.getString "NETWORK_SIZE" ≠ "" → classBits (tmpl.getString "NETWORK_SIZE") = none →
    ∃ n : Nat, 0 < n ∧ numberOf (tmpl.getString "NETWORK_SIZE") = some (n : Int)

/-- Both ends are in the network that is written, whose mask is stored, and an end by default
is neither its first address nor its last. -/
def InNetwork (defaultSize : Int) (tmpl : Template) (ipStart ipEnd : Nat) (tmpl' : Template) :
    Prop :=
  ∃ bits netAddr, WrittenBits defaultSize tmpl bits ∧
    ipToNumber (splitAddress (tmpl.getString "NETWORK_ADDRESS")).1 = some netAddr ∧
    ipStart / 2 ^ bits = netAddr / 2 ^ bits ∧ ipEnd / 2 ^ bits = netAddr / 2 ^ bits ∧
    ipToNumber (tmpl'.getString "NETWORK_MASK") = some (2 ^ 32 - 2 ^ bits) ∧
    (tmpl.getString "IP_START" = "" → ipStart ≠ netAddr ∧ ipStart + 1 ≠ netAddr + 2 ^ bits) ∧
    (tmpl.getString "IP_END" = "" → ipEnd ≠ netAddr ∧ ipEnd + 1 ≠ netAddr + 2 ^ bits)

/-- The attributes are properly written and the range is ordered. By a MAC address it has as many
addresses as are written and does not wrap, by a network address it is in the network. -/
def RangeWritten (defaultSize : Int) (tmpl : Template) (ipStart ipEnd : Nat) (tmpl' : Template) :
    Prop :=
  ProperlyWritten tmpl ∧ ipStart ≤ ipEnd ∧ ipEnd < 2 ^ 32 ∧
    if tmpl.getString "MAC_START" ≠ "" then
      writtenSize defaultSize (tmpl.getString "NETWORK_SIZE") = some (ipEnd + 1 - ipStart)
    else
      tmpl.getString "NETWORK_ADDRESS" ≠ "" → InNetwork defaultSize tmpl ipStart ipEnd tmpl'

/-- A template is read as it is written, or rejected. -/
def AsWritten (log : Nat → ℚ) (defaultSize : Int) (tmpl : Template) : Prop :=
  match processTemplate log defaultSize tmpl with
  | none => False
  | some (.error _) => True
  | some (.ok (ipStart, ipEnd, tmpl')) => RangeWritten defaultSize tmpl ipStart ipEnd tmpl'

/-! ## When it is read as written -/

/-- The range fits a network with so many host bits. -/
def Fits (bits : Nat) (netAddr ipStart ipEnd : Nat) : Prop :=
  netAddr % 2 ^ bits = 0 ∧ ipStart / 2 ^ bits = netAddr / 2 ^ bits ∧
    ipEnd / 2 ^ bits = netAddr / 2 ^ bits ∧ ipStart ≤ ipEnd

/-- The size that a text starts with: of a class, a number, or the default. -/
def readSize (defaultSize : Int) (stSize : String) : Option Nat :=
  match classBits stSize with
  | some bits => some (2 ^ bits)
  | none => if stSize ≠ "" then readUnsigned stSize else some (defaultSize % 2 ^ 32).toNat

/-- The host bits for a size: the fewest for the size and two addresses more, which make a word,
but one too many when these are 2 ^ 29 or 2 ^ 31. -/
def sizeBits (size : Nat) : Nat :=
  let n := (size + 2) % 2 ^ 32
  if n = 0 then 2 ^ 31 else if n = 2 ^ 29 then 30 else if n = 2 ^ 31 then 32 else Nat.clog 2 n

/-- The lowest bit of a mask. -/
def lowestBit (mask : Nat) : Nat := ((List.range 32).find? fun i => mask.testBit i).getD 32

/-- The host bits of a network address in the texts, however they are written: by the number that
the prefix starts with, the lowest bit of the mask, or the size. They are `some none` for what is
refused, and `none` for an empty prefix. -/
def looseBits (defaultSize : Int) (tmpl : Template) : Option (Option Nat) :=
  match (splitAddress (tmpl.getString "NETWORK_ADDRESS")).2 with
  | some text => (readNetworkBits text).map fun p => if p > 32 then none else some (32 - p)
  | none =>
    if tmpl.getString "NETWORK_MASK" ≠ "" then
      some ((ipToNumber (tmpl.getString "NETWORK_MASK")).map lowestBit)
    else
      some ((readSize defaultSize (tmpl.getString "NETWORK_SIZE")).map fun n =>
        (classBits (tmpl.getString "NETWORK_SIZE")).getD (sizeBits n))

/-- The prefix, the mask or the size is written so that it is read right: the prefix is a number
and not 0, the mask is contiguous and not 0, and the size and two addresses more are below 2 ^ 31
and not 2 ^ 29. -/
def WellWritten (defaultSize : Int) (tmpl : Template) : Prop :=
  match (splitAddress (tmpl.getString "NETWORK_ADDRESS")).2 with
  | some text => ∃ p : Nat, numberOf text = some (p : Int) ∧ 0 < p ∧ p ≤ 32
  | none =>
    if tmpl.getString "NETWORK_MASK" ≠ "" then
      ∃ bits < 32, ipToNumber (tmpl.getString "NETWORK_MASK") = some (2 ^ 32 - 2 ^ bits)
    else
      classBits (tmpl.getString "NETWORK_SIZE") ≠ none ∨
        ∃ n, writtenSize defaultSize (tmpl.getString "NETWORK_SIZE") = some n ∧
          n + 2 < 2 ^ 31 ∧ n + 2 ≠ 2 ^ 29

/-- With a MAC address the range is too large. Two ends that are let through stand beside no
attribute that is written wrongly. With a network address the prefix is not empty, and when the
addresses fit the network of the texts, all attributes are properly written, those that count are
well written, and it is not a network of two addresses with an end by default. -/
def ReadRight (defaultSize : Int) (tmpl : Template) : Prop :=
  if tmpl.getString "MAC_START" ≠ "" then
    ∀ mac size, macToNumber (tmpl.getString "MAC_START") = some mac →
      readSize defaultSize (tmpl.getString "NETWORK_SIZE") = some size → 2 ^ 32 ≤ mac.2 + size
  else
    ∀ ipStart ipEnd, readEnd (tmpl.getString "IP_START") = some ipStart →
      readEnd (tmpl.getString "IP_END") = some ipEnd →
      if tmpl.getString "NETWORK_ADDRESS" = "" then
        0 < ipStart → ipStart ≤ ipEnd → ProperlyWritten tmpl
      else
        match looseBits defaultSize tmpl with
        | none => False
        | some none => True
        | some (some bits) => bits < 32 ∧ ∀ netAddr,
            ipToNumber (splitAddress (tmpl.getString "NETWORK_ADDRESS")).1 = some netAddr →
            Fits bits netAddr (startOf netAddr ipStart) (endOf bits netAddr ipEnd) →
            ProperlyWritten tmpl ∧ WellWritten defaultSize tmpl ∧
              (bits = 1 → tmpl.getString "IP_START" ≠ "" ∧ tmpl.getString "IP_END" ≠ "")

/-! ## Numbers that are read -/

section Reads

variable {log : Nat → ℚ} {defaultSize : Int} {tmpl : Template} {text stAddr : String}
  {bits netAddr ipStart ipEnd : Nat}

/-- A positive number has no minus, and is made of digits to its end. -/
theorem digits_of_numberOf {n : Nat} (number : numberOf text = some (n : Int)) (positive : 0 < n) :
    ∃ s, readSign (skipBlanks text.toList) = (false, s) ∧ s ≠ [] ∧
      (∀ c ∈ s, c.isDigit = true) ∧ digitsValue s = n := by
  unfold numberOf at number
  rcases sign : readSign (skipBlanks text.toList) with ⟨minus, s⟩
  rw [sign] at number
  dsimp only at number
  split at number
  · rename_i digits
    have value := Option.some.inj number
    cases minus with
    | true =>
      simp only [if_true] at value
      omega
    | false =>
      simp only [Bool.false_eq_true, if_false] at value
      exact ⟨s, rfl, digits.1, List.all_eq_true.mp digits.2, Int.ofNat.inj value⟩
  · cases number

/-- A positive number is read as it is, if it fits. -/
theorem readUnsigned_of_numberOf {n : Nat} (number : numberOf text = some (n : Int))
    (positive : 0 < n) : readUnsigned text = if n < 2 ^ 32 then some n else none := by
  obtain ⟨s, sign, nonempty, digits, value⟩ := digits_of_numberOf number positive
  unfold readUnsigned
  rw [sign]
  simp only [List.takeWhile_eq_self_iff.mpr digits, value, nonempty, false_or, Bool.false_eq_true,
    if_false]
  by_cases fits : n < 2 ^ 32
  · rw [if_neg (by omega), if_pos fits]
  · rw [if_pos (by omega), if_neg fits]

/-- A prefix that is a positive number is read as it is. -/
theorem readNetworkBits_of_numberOf {n : Nat} (number : numberOf text = some (n : Int))
    (positive : 0 < n) (fits : n < 2 ^ 32) : readNetworkBits text = some n := by
  obtain ⟨s, sign, nonempty, digits, value⟩ := digits_of_numberOf number positive
  unfold readNetworkBits
  cases blanks : skipBlanks text.toList with
  | nil =>
    rw [blanks] at sign
    cases sign
    exact absurd rfl nonempty
  | cons c t =>
    rw [blanks] at sign
    have decimal : s.foldl (fun v c => 10 * v + IStream.digitValue c) 0 = n :=
      (foldl_digitValue digits).trans value
    unfold IStream.readUnsigned IStream.ofText
    simp only [reduceCtorEq, if_false, blanks, sign, skipPrefix_dec, isDigitOf_dec,
      List.takeWhile_eq_self_iff.mpr digits, nonempty, decimal, Bool.not_true, Bool.false_eq_true]
    rw [if_neg (by omega)]

/-- The loop stops at the lowest bit of the mask. -/
theorem maskHostBits_eq {netMask n bits k : Nat} (below : ∀ i < bits, netMask.testBit i = false)
    (stop : bits < k + n → netMask.testBit bits = true) (start : k ≤ bits) (room : bits ≤ k + n) :
    maskHostBits netMask n k = bits := by
  induction n generalizing k with
  | zero =>
    have same : k = bits := by omega
    exact same
  | succ n ih =>
    have bit : ((netMask >>> k) &&& 1 = 1) ↔ netMask.testBit k = true := by
      rw [Nat.testBit_eq_decide_div_mod_eq, Nat.and_one_is_mod, Nat.shiftRight_eq_div_pow,
        decide_eq_true_iff]
    unfold maskHostBits
    by_cases here : k = bits
    · have set := bit.mpr (by rw [here]; exact stop (by omega))
      rw [if_neg (not_not.mpr set)]
      exact here
    · have clear : ¬ (netMask >>> k) &&& 1 = 1 := fun set => by
        have zero := below k (by omega)
        rw [bit.mp set] at zero
        cases zero
      rw [if_pos clear]
      exact ih (fun inside => stop (by omega)) (by omega) (by omega)

/-- A contiguous mask is read as it is. -/
theorem maskHostBits_mask (small : bits ≤ 32) : maskHostBits (2 ^ 32 - 2 ^ bits) 32 0 = bits := by
  rw [← PrefixMask.mask_eq small]
  refine maskHostBits_eq (fun i below => ?_) (fun inside => ?_) (Nat.zero_le _) (by omega)
  · rw [PrefixMask.testBit_mask, decide_eq_false (show ¬ bits ≤ i by omega), Bool.and_false]
  · rw [PrefixMask.testBit_mask, decide_eq_true (show bits < 32 by omega),
      decide_eq_true (Nat.le_refl bits)]
    rfl

/-- The size that is read, by its class or as a number. -/
theorem getTemplateSize_eq : getTemplateSize log defaultSize tmpl =
    match classBits (tmpl.getString "NETWORK_SIZE") with
    | some bits => some (bits, 2 ^ bits)
    | none =>
      (if tmpl.getString "NETWORK_SIZE" ≠ "" then readUnsigned (tmpl.getString "NETWORK_SIZE")
        else some (defaultSize % 2 ^ 32).toNat).map fun size => (logBits log size, size) := by
  unfold getTemplateSize classBits
  dsimp only
  split
  · rfl
  · split
    · rfl
    · split
      · rfl
      · rfl

theorem getTemplateSize_eq_map : getTemplateSize log defaultSize tmpl =
    (readSize defaultSize (tmpl.getString "NETWORK_SIZE")).map fun n =>
      ((classBits (tmpl.getString "NETWORK_SIZE")).getD (logBits log n), n) := by
  rw [getTemplateSize_eq]
  unfold readSize
  cases classBits (tmpl.getString "NETWORK_SIZE") with
  | none => rfl
  | some bits => rfl

/-- The logarithms give the host bits of a size. -/
theorem logBits_eq (isLog : Binary64.IsLog log) (size : Nat) :
    logBits log size = sizeBits size := by
  unfold logBits sizeBits
  dsimp only
  split
  · rfl
  · rename_i nonzero
    have word : (size + 2) % 2 ^ 32 < 2 ^ 32 := Nat.mod_lt _ (by decide)
    have few : Nat.clog 2 ((size + 2) % 2 ^ 32) ≤ 32 := Nat.clog_le_of_le_pow (Nat.le_of_lt word)
    rw [Binary64.ceil_log_div_eq isLog (Nat.pos_of_ne_zero nonzero) word]
    split
    · rfl
    · split
      · rfl
      · omega

/-- The host bits for a size are those that it needs, if they are less than 32 and the size is not
one of those that the logarithm takes for too large. -/
theorem sizeBits_eq_clog_iff {size : Nat} (word : size < 2 ^ 32) (small : sizeBits size < 32) :
    sizeBits size = Nat.clog 2 (size + 2) ↔ size + 2 < 2 ^ 31 ∧ size + 2 ≠ 2 ^ 29 := by
  have power {k n : Nat} : Nat.clog 2 n ≤ k ↔ n ≤ 2 ^ k := Nat.clog_le_iff_le_pow (by decide)
  unfold sizeBits at small ⊢
  dsimp only at small ⊢
  rcases Nat.lt_or_ge (size + 2) (2 ^ 32) with inside | wraps
  · rw [Nat.mod_eq_of_lt inside, if_neg (Nat.succ_ne_zero _)] at small ⊢
    split at small
    · rename_i same
      rw [if_pos same, same, Nat.clog_pow 2 29 (by decide)]
      omega
    · rename_i other
      rw [if_neg other]
      split at small
      · exact absurd small (Nat.lt_irrefl 32)
      · rename_i top
        rw [if_neg top]
        have most := power.mp (Nat.le_of_lt_succ small)
        exact iff_of_true rfl ⟨by omega, other⟩
  · rcases Nat.lt_or_ge (size + 2) (2 ^ 32 + 1) with zero | one
    · rw [show (size + 2) % 2 ^ 32 = 0 by omega, if_pos rfl] at small
      exact absurd small (by decide)
    · have last : (size + 2) % 2 ^ 32 = 1 := by omega
      have many : ¬ Nat.clog 2 (size + 2) ≤ 0 := by
        rw [power]
        omega
      rw [last, if_neg one_ne_zero, if_neg (by decide), if_neg (by decide), Nat.clog_one_right]
      exact iff_of_false (fun same => many same.ge) fun both => by omega

/-- The loop finds the lowest bit. -/
theorem maskHostBits_eq_lowestBit (netMask : Nat) :
    maskHostBits netMask 32 0 = lowestBit netMask := by
  unfold lowestBit
  cases found : (List.range 32).find? fun i => netMask.testBit i with
  | none =>
    have clear := List.find?_range_eq_none.mp found
    refine maskHostBits_eq (fun i below => ?_) (fun inside => ?_) (Nat.zero_le _) (Nat.le_refl _)
    · exact Bool.not_eq_true' _ |>.mp (clear i below)
    · exact absurd inside (Nat.lt_irrefl _)
  | some bit =>
    obtain ⟨set, member, clear⟩ := List.find?_range_eq_some.mp found
    have small := List.mem_range.mp member
    refine maskHostBits_eq (fun i below => ?_) (fun _ => set) (Nat.zero_le _) (by simp; omega)
    exact Bool.not_eq_true' _ |>.mp (clear i below)

/-- The host bits that the code finds are those of the texts. -/
theorem looseBits_eq (isLog : Binary64.IsLog log) : looseBits defaultSize tmpl =
    (hostBits log defaultSize tmpl (splitAddress (tmpl.getString "NETWORK_ADDRESS")).2).map
      Except.toOption := by
  unfold looseBits hostBits
  cases (splitAddress (tmpl.getString "NETWORK_ADDRESS")).2 with
  | some text =>
    dsimp only
    rw [Option.map_map]
    refine congrArg (Option.map · _) (funext fun p => ?_)
    dsimp only [Function.comp]
    split
    · rfl
    · rfl
  | none =>
    dsimp only
    split
    · cases ipToNumber (tmpl.getString "NETWORK_MASK") with
      | none => rfl
      | some netMask =>
        rw [Option.map_some, Option.map_some, maskHostBits_eq_lowestBit]
        rfl
    · rw [getTemplateSize_eq_map]
      cases readSize defaultSize (tmpl.getString "NETWORK_SIZE") with
      | none => rfl
      | some n =>
        rw [Option.map_some, Option.map_some, logBits_eq isLog]
        rfl

/-- A size that is well written is read as it is. -/
theorem writtenSize_read {n size : Nat}
    (written : writtenSize defaultSize (tmpl.getString "NETWORK_SIZE") = some n)
    (read : getTemplateSize log defaultSize tmpl = some (bits, size)) : size = n := by
  rw [getTemplateSize_eq] at read
  unfold writtenSize at written
  split at written
  · rename_i same
    rw [same] at read
    cases written
    cases read
    rfl
  · rename_i same
    rw [same] at read
    dsimp only at read
    split at written
    · rename_i empty
      rw [if_neg (not_not.mpr empty)] at read
      cases written
      cases read
      rfl
    · rename_i nonempty
      rw [if_pos nonempty] at read
      obtain ⟨number, isNumber, positive⟩ := Option.bind_eq_some_iff.mp written
      split at positive
      · rename_i above
        cases positive
        have whole : number = (number.toNat : Int) := by omega
        rw [whole] at isNumber
        rw [readUnsigned_of_numberOf isNumber (by omega)] at read
        split at read
        · cases read
          rfl
        · cases read
      · cases positive

theorem getTemplateSize_lt {size : Nat}
    (read : getTemplateSize log defaultSize tmpl = some (bits, size)) : size < 2 ^ 32 := by
  rw [getTemplateSize_eq] at read
  split at read
  · rename_i found
    cases read
    unfold classBits at found
    split at found
    · cases found
      decide
    · split at found
      · cases found
        decide
      · split at found
        · cases found
          decide
        · cases found
  · obtain ⟨n, given, is⟩ := Option.map_eq_some_iff.mp read
    cases is
    split at given
    · unfold readUnsigned at given
      dsimp only at given
      split at given
      · cases given
      · rename_i fits
        push Not at fits
        cases given
        split
        · exact Nat.mod_lt _ (by decide)
        · exact fits.2
    · cases given
      omega

/-! ## The checks -/

theorem endOf_lt (word : ipEnd < 2 ^ 32) : endOf bits netAddr ipEnd < 2 ^ 32 := by
  unfold endOf
  split
  · exact Nat.mod_lt _ (by decide)
  · exact word

/-- The range is let through exactly when it fits the network that is read. -/
theorem checkRange_eq_ok_iff {range : Nat × Nat} {stIpStart stIpEnd : String}
    (startWord : ipStart < 2 ^ 32) (endWord : ipEnd < 2 ^ 32) :
    checkRange bits stAddr stIpStart stIpEnd ipStart ipEnd = .ok range ↔
      ∃ netAddr, ipToNumber stAddr = some netAddr ∧
        range = (startOf netAddr ipStart, endOf bits netAddr ipEnd) ∧
        Fits bits netAddr range.1 range.2 := by
  unfold checkRange
  dsimp only
  cases read : ipToNumber stAddr with
  | none => simp
  | some netAddr =>
    have word := ipToNumber_lt read
    have startWord' : startOf netAddr ipStart < 2 ^ 32 := by
      unfold startOf
      split
      · exact Nat.mod_lt _ (by decide)
      · exact startWord
    have endWord' : endOf bits netAddr ipEnd < 2 ^ 32 := endOf_lt endWord
    simp only [Option.some.injEq, exists_eq_left', Fits]
    by_cases base : netAddr % 2 ^ bits = 0
    · have kept := (PrefixMask.mask_and_self_iff word).mpr base
      rw [if_neg (not_not.mpr kept.symm)]
      by_cases first : startOf netAddr ipStart / 2 ^ bits = netAddr / 2 ^ bits
      · rw [if_neg (not_not.mpr ((PrefixMask.mask_and_eq_iff startWord' base).mpr first))]
        by_cases last : endOf bits netAddr ipEnd / 2 ^ bits = netAddr / 2 ^ bits
        · rw [if_neg (not_not.mpr ((PrefixMask.mask_and_eq_iff endWord' base).mpr last))]
          by_cases ordered : startOf netAddr ipStart ≤ endOf bits netAddr ipEnd
          · rw [if_neg (Nat.not_lt.mpr ordered)]
            constructor
            · intro same
              cases same
              exact ⟨rfl, base, first, last, ordered⟩
            · intro fits
              rw [fits.1]
          · rw [if_pos (Nat.lt_of_not_le ordered)]
            refine iff_of_false (fun same => by cases same) fun fits => ?_
            obtain ⟨rfl, _, _, _, le⟩ := fits
            exact ordered le
        · rw [if_pos fun same => last ((PrefixMask.mask_and_eq_iff endWord' base).mp same)]
          refine iff_of_false (fun same => by cases same) fun fits => ?_
          obtain ⟨rfl, _, _, last', _⟩ := fits
          exact last last'
      · rw [if_pos fun same => first ((PrefixMask.mask_and_eq_iff startWord' base).mp same)]
        refine iff_of_false (fun same => by cases same) fun fits => ?_
        obtain ⟨rfl, _, first', _⟩ := fits
        exact first first'
    · rw [if_pos fun same => base ((PrefixMask.mask_and_self_iff word).mp same.symm)]
      exact iff_of_false (fun same => by cases same) fun fits => base fits.2.1

theorem power_cases (bits : Nat) : bits = 0 ∨ bits = 1 ∨ bits ≠ 1 ∧ 4 ≤ 2 ^ bits := by
  rcases Nat.lt_or_ge bits 2 with few | more
  · omega
  · have four : 2 ^ 2 ≤ 2 ^ bits := Nat.pow_le_pow_right (by omega) more
    exact .inr (.inr ⟨by omega, four⟩)

/-- The first address by default is inside a network of more than two addresses, and in one of
two it is the last. -/
theorem default_start (small : bits < 32) (word : netAddr < 2 ^ 32)
    (fits : Fits bits netAddr (startOf netAddr 0) ipEnd) :
    startOf netAddr 0 ≠ netAddr ∧
      (startOf netAddr 0 + 1 ≠ netAddr + 2 ^ bits ↔ bits ≠ 1) := by
  obtain ⟨base, first, _, _⟩ := fits
  have room := PrefixMask.base_add_le (Nat.le_of_lt small) word base
  have default : startOf netAddr 0 = (netAddr + 1) % 2 ^ 32 := if_pos rfl
  rw [default] at first ⊢
  rcases power_cases bits with rfl | rfl | ⟨apart, large⟩
  · simp only [Nat.pow_zero, Nat.div_one] at first
    omega
  · omega
  · omega

/-- The last address by default is inside a network of more than two addresses, and in one of
two it is the first. -/
theorem default_end (small : bits < 32) (word : netAddr < 2 ^ 32)
    (fits : Fits bits netAddr ipStart (endOf bits netAddr 0)) :
    (endOf bits netAddr 0 ≠ netAddr ↔ bits ≠ 1) ∧
      endOf bits netAddr 0 + 1 ≠ netAddr + 2 ^ bits := by
  obtain ⟨base, _, last, _⟩ := fits
  have room := PrefixMask.base_add_le (Nat.le_of_lt small) word base
  have default : endOf bits netAddr 0 = (netAddr + 2 ^ bits + (2 ^ 32 - 2)) % 2 ^ 32 := if_pos rfl
  rw [default] at last ⊢
  rcases power_cases bits with rfl | rfl | ⟨apart, large⟩
  · simp only [Nat.pow_zero, Nat.div_one] at last
    omega
  · omega
  · omega

/-! ## Host bits that are read as they are written -/

/-- The host bits of a well written network are read as they are written. -/
theorem writtenBits_of_wellWritten (isLog : Binary64.IsLog log)
    (well : WellWritten defaultSize tmpl) (small : bits < 32)
    (read : hostBits log defaultSize tmpl
      (splitAddress (tmpl.getString "NETWORK_ADDRESS")).2 = some (.ok bits)) :
    WrittenBits defaultSize tmpl bits := by
  refine ⟨Nat.le_of_lt small, ?_⟩
  unfold WellWritten at well
  unfold hostBits at read
  cases cidr : (splitAddress (tmpl.getString "NETWORK_ADDRESS")).2 with
  | some text =>
    rw [cidr] at well read
    obtain ⟨p, number, positive, le⟩ := well
    dsimp only at read
    rw [readNetworkBits_of_numberOf number positive (by omega)] at read
    simp only [Option.map_some, Option.some.injEq, if_neg (show ¬ p > 32 by omega)] at read
    cases read
    exact ⟨p, number, by omega⟩
  | none =>
    rw [cidr] at well read
    dsimp only at well read ⊢
    split at well
    · rename_i given
      obtain ⟨mask, below, isMask⟩ := well
      rw [if_pos given, isMask] at read
      cases read
      rw [if_pos given, maskHostBits_mask (Nat.le_of_lt below)]
      exact isMask
    · rename_i absent
      rw [if_neg absent] at read ⊢
      cases size : getTemplateSize log defaultSize tmpl with
      | none =>
        rw [size] at read
        cases read
      | some pair =>
        obtain ⟨read', n⟩ := pair
        rw [size] at read
        cases read
        have reading := @getTemplateSize_eq log defaultSize tmpl
        unfold SizeBits
        cases ofClass : classBits (tmpl.getString "NETWORK_SIZE") with
        | some c =>
          rw [ofClass, size] at reading
          cases reading
          rfl
        | none =>
          rw [ofClass] at well
          obtain ⟨m, written, exact'⟩ := well.resolve_left (not_not.mpr rfl)
          have same : n = m := writtenSize_read written size
          have word := getTemplateSize_lt size
          rw [ofClass, size] at reading
          obtain ⟨k, _, is⟩ := Option.map_eq_some_iff.mp reading.symm
          cases is
          rw [logBits_eq isLog] at small ⊢
          rw [← same] at exact' written
          exact ⟨n, written, (sizeBits_eq_clog_iff word small).mpr exact'⟩

/-- A network that is read with the host bits that are written is well written. -/
theorem wellWritten_of_writtenBits (isLog : Binary64.IsLog log)
    (written : WrittenBits defaultSize tmpl bits) (small : bits < 32)
    (read : hostBits log defaultSize tmpl
      (splitAddress (tmpl.getString "NETWORK_ADDRESS")).2 = some (.ok bits)) :
    WellWritten defaultSize tmpl := by
  obtain ⟨_, written⟩ := written
  unfold WellWritten
  cases cidr : (splitAddress (tmpl.getString "NETWORK_ADDRESS")).2 with
  | some text =>
    rw [cidr] at written
    obtain ⟨p, number, sum⟩ := written
    exact ⟨p, number, by omega, by omega⟩
  | none =>
    unfold hostBits at read
    rw [cidr] at written read
    dsimp only at written read ⊢
    split at written
    · rename_i given
      rw [if_pos given]
      exact ⟨bits, small, written⟩
    · rename_i absent
      rw [if_neg absent] at read ⊢
      unfold SizeBits at written
      cases ofClass : classBits (tmpl.getString "NETWORK_SIZE") with
      | some c => exact .inl (Option.some_ne_none c)
      | none =>
        right
        rw [ofClass] at written
        obtain ⟨n, isSize, is⟩ := written
        cases size : getTemplateSize log defaultSize tmpl with
        | none =>
          rw [size] at read
          cases read
        | some pair =>
          obtain ⟨read', m⟩ := pair
          rw [size] at read
          cases read
          have same : m = n := writtenSize_read isSize size
          have word := getTemplateSize_lt size
          have reading := @getTemplateSize_eq log defaultSize tmpl
          rw [ofClass, size] at reading
          obtain ⟨k, _, pairIs⟩ := Option.map_eq_some_iff.mp reading.symm
          cases pairIs
          rw [logBits_eq isLog] at small is
          rw [← same] at isSize is
          exact ⟨m, isSize, (sizeBits_eq_clog_iff word small).mp is⟩

/-! ## Templates that are read as they are written -/

theorem getString_replace {name value : String} (tmpl : Template) :
    (tmpl.replace name value).getString name = value := by
  have gone : (tmpl.filter fun a => a.name ≠ name).filter (fun a => a.name = name) = [] := by
    rw [List.filter_filter, List.filter_eq_nil_iff]
    intro a _
    simp
  have kept : [Attribute.single name value].filter (fun a => a.name = name) =
      [.single name value] := by
    rw [List.filter_cons_of_pos (by simp [Attribute.name]), List.filter_nil]
  unfold Template.getString Template.get Template.replace
  rw [List.filter_append, gone, kept]
  rfl

/-- A range by a network address is as it is written exactly when the network is well written
and is not one of two addresses with an end by default. -/
theorem inNetwork_iff {tmpl' : Template} (isLog : Binary64.IsLog log) (small : bits < 32)
    (read : hostBits log defaultSize tmpl
      (splitAddress (tmpl.getString "NETWORK_ADDRESS")).2 = some (.ok bits))
    (address : ipToNumber (splitAddress (tmpl.getString "NETWORK_ADDRESS")).1 = some netAddr)
    (start : readEnd (tmpl.getString "IP_START") = some ipStart)
    (stop : readEnd (tmpl.getString "IP_END") = some ipEnd)
    (fits : Fits bits netAddr (startOf netAddr ipStart) (endOf bits netAddr ipEnd))
    (mask : tmpl'.getString "NETWORK_MASK" = ipToString (PrefixMask.mask 32 bits)) :
    InNetwork defaultSize tmpl (startOf netAddr ipStart) (endOf bits netAddr ipEnd) tmpl' ↔
      WellWritten defaultSize tmpl ∧
        (bits = 1 → tmpl.getString "IP_START" ≠ "" ∧ tmpl.getString "IP_END" ≠ "") := by
  have word := ipToNumber_lt address
  have stored : ipToNumber (tmpl'.getString "NETWORK_MASK") = some (2 ^ 32 - 2 ^ bits) := by
    rw [mask, PrefixMask.mask_eq (Nat.le_of_lt small)]
    exact ipToNumber_ipToString (Nat.sub_lt (Nat.two_pow_pos 32) (Nat.two_pow_pos bits))
  have startZero : tmpl.getString "IP_START" = "" → ipStart = 0 := fun empty => by
    rw [readEnd, if_pos empty] at start
    cases start
    rfl
  have stopZero : tmpl.getString "IP_END" = "" → ipEnd = 0 := fun empty => by
    rw [readEnd, if_pos empty] at stop
    cases stop
    rfl
  constructor
  · intro inside
    obtain ⟨b, net, written, address', _, _, stored', first, last⟩ := inside
    obtain rfl : netAddr = net := Option.some.inj (address.symm.trans address')
    have sameMask := Option.some.inj (stored.symm.trans stored')
    have low : 2 ^ bits ≤ 2 ^ 32 := Nat.pow_le_pow_right (by omega) (Nat.le_of_lt small)
    have low' : 2 ^ b ≤ 2 ^ 32 := Nat.pow_le_pow_right (by omega) written.1
    have power : 2 ^ bits = 2 ^ b := by omega
    obtain rfl : bits = b := Nat.pow_right_injective (Nat.le_refl 2) power
    refine ⟨wellWritten_of_writtenBits isLog written small read, fun two =>
      ⟨fun empty => ?_, fun empty => ?_⟩⟩
    · rw [startZero empty] at fits first
      exact (default_start small word fits).2.mp (first empty).2 two
    · rw [stopZero empty] at fits last
      exact (default_end small word fits).1.mp (last empty).1 two
  · intro well
    refine ⟨bits, netAddr, writtenBits_of_wellWritten isLog well.1 small read, address, fits.2.1,
      fits.2.2.1, stored, fun empty => ?_, fun empty => ?_⟩
    · have more : bits ≠ 1 := fun two => (well.2 two).1 empty
      rw [startZero empty] at fits ⊢
      have inside := default_start small word fits
      exact ⟨inside.1, inside.2.mpr more⟩
    · have more : bits ≠ 1 := fun two => (well.2 two).2 empty
      rw [stopZero empty] at fits ⊢
      have inside := default_end small word fits
      exact ⟨inside.1.mpr more, inside.2⟩

/-- A range by a MAC address has one address more than are written. -/
theorem asWritten_mac_iff (given : tmpl.getString "MAC_START" ≠ "") :
    AsWritten log defaultSize tmpl ↔
      ∀ mac size, macToNumber (tmpl.getString "MAC_START") = some mac →
        readSize defaultSize (tmpl.getString "NETWORK_SIZE") = some size →
        2 ^ 32 ≤ mac.2 + size := by
  unfold AsWritten processTemplate macRange
  rw [if_pos given]
  cases mac? : macToNumber (tmpl.getString "MAC_START") with
  | none => simp
  | some mac =>
    have reading := @getTemplateSize_eq_map log defaultSize tmpl
    cases size? : readSize defaultSize (tmpl.getString "NETWORK_SIZE") with
    | none =>
      rw [size?] at reading
      simp [reading]
    | some size =>
      rw [size?, Option.map_some] at reading
      have word := macToNumber_lt mac?
      have sizeWord := getTemplateSize_lt reading
      rw [reading]
      dsimp only
      by_cases large : 2 ^ 32 ≤ mac.2 + size
      · have wrapped : (mac.2 + size) % 2 ^ 32 = mac.2 + size - 2 ^ 32 := by omega
        rw [wrapped, if_pos (by omega)]
        refine iff_of_true trivial fun m n isMac isSize => ?_
        cases isMac
        cases isSize
        exact large
      · have whole : (mac.2 + size) % 2 ^ 32 = mac.2 + size := Nat.mod_eq_of_lt (by omega)
        rw [whole, if_neg (by omega)]
        refine iff_of_false (fun written => ?_) fun all => large (all mac size rfl rfl)
        obtain ⟨_, _, _, sized⟩ := written
        rw [if_pos given] at sized
        have same : size = mac.2 + size + 1 - mac.2 := writtenSize_read sized reading
        omega

theorem readEnd_lt {ip : Nat} (read : readEnd text = some ip) : ip < 2 ^ 32 := by
  unfold readEnd at read
  split at read
  · cases read
    omega
  · exact ipToNumber_lt read

/-- What is read of a network address. -/
theorem asWritten_network_iff (isLog : Binary64.IsLog log) (noMac : tmpl.getString "MAC_START" = "")
    (start : readEnd (tmpl.getString "IP_START") = some ipStart)
    (stop : readEnd (tmpl.getString "IP_END") = some ipEnd)
    (given : tmpl.getString "NETWORK_ADDRESS" ≠ "") :
    AsWritten log defaultSize tmpl ↔
      match looseBits defaultSize tmpl with
      | none => False
      | some none => True
      | some (some bits) => bits < 32 ∧ ∀ netAddr,
          ipToNumber (splitAddress (tmpl.getString "NETWORK_ADDRESS")).1 = some netAddr →
          Fits bits netAddr (startOf netAddr ipStart) (endOf bits netAddr ipEnd) →
          ProperlyWritten tmpl ∧ WellWritten defaultSize tmpl ∧
            (bits = 1 → tmpl.getString "IP_START" ≠ "" ∧ tmpl.getString "IP_END" ≠ "") := by
  rw [looseBits_eq isLog]
  unfold AsWritten processTemplate
  simp only [noMac, ne_eq, not_true_eq_false, if_false, start, stop, given]
  unfold networkRange
  dsimp only
  cases read : hostBits log defaultSize tmpl
    (splitAddress (tmpl.getString "NETWORK_ADDRESS")).2 with
  | none => exact Iff.rfl
  | some answer =>
    cases answer with
    | error e => exact Iff.rfl
    | ok bits =>
      dsimp only [Option.map_some, Except.toOption]
      by_cases small : bits < 32
      · rw [if_neg (Nat.not_le.mpr small), and_iff_right small]
        cases checked : checkRange bits (splitAddress (tmpl.getString "NETWORK_ADDRESS")).1
          (tmpl.getString "IP_START") (tmpl.getString "IP_END") ipStart ipEnd with
        | error e =>
          refine iff_of_true trivial fun netAddr address fits => ?_
          have passed : checkRange bits (splitAddress (tmpl.getString "NETWORK_ADDRESS")).1
              (tmpl.getString "IP_START") (tmpl.getString "IP_END") ipStart ipEnd =
              .ok (startOf netAddr ipStart, endOf bits netAddr ipEnd) :=
            (checkRange_eq_ok_iff (readEnd_lt start) (readEnd_lt stop)).mpr
              ⟨netAddr, address, rfl, fits⟩
          rw [checked] at passed
          cases passed
        | ok range =>
          obtain ⟨netAddr, address, rfl, fits⟩ :=
            (checkRange_eq_ok_iff (readEnd_lt start) (readEnd_lt stop)).mp checked
          have word : endOf bits netAddr ipEnd < 2 ^ 32 := endOf_lt (readEnd_lt stop)
          have inside := inNetwork_iff isLog small read address start stop fits
            (getString_replace ((((tmpl.erase "MAC_START").erase "IP_START").erase "IP_END").erase
              "NETWORK_SIZE"))
          have only : ∀ p : Prop, (∀ net, ipToNumber
              (splitAddress (tmpl.getString "NETWORK_ADDRESS")).1 = some net →
              Fits bits net (startOf net ipStart) (endOf bits net ipEnd) → p) ↔ p := fun p =>
            ⟨fun all => all netAddr address fits, fun holds _ _ _ => holds⟩
          rw [only, ← inside]
          unfold RangeWritten
          simp only [Except.map, noMac, ne_eq, not_true_eq_false, if_false, given,
            not_false_eq_true, true_implies]
          exact and_congr_right fun _ =>
            ⟨fun written => written.2.2, fun written => ⟨fits.2.2.2, word, written⟩⟩
      · rw [if_pos (Nat.not_lt.mp small)]
        exact iff_of_false id fun right => small right.1

/-- Two ends are read as they are written, whatever stands beside them. -/
theorem asWritten_manual_iff (noMac : tmpl.getString "MAC_START" = "")
    (start : readEnd (tmpl.getString "IP_START") = some ipStart)
    (stop : readEnd (tmpl.getString "IP_END") = some ipEnd)
    (noAddress : tmpl.getString "NETWORK_ADDRESS" = "") :
    AsWritten log defaultSize tmpl ↔ (0 < ipStart → ipStart ≤ ipEnd → ProperlyWritten tmpl) := by
  unfold AsWritten processTemplate manualRange
  simp only [noMac, ne_eq, not_true_eq_false, if_false, start, stop, noAddress, if_true]
  by_cases both : ipStart ≠ 0 ∧ ipEnd ≠ 0
  · rw [if_pos both]
    by_cases reversed : ipEnd < ipStart
    · rw [if_pos reversed]
      exact iff_of_true trivial fun _ ordered => absurd reversed (Nat.not_lt.mpr ordered)
    · rw [if_neg reversed]
      constructor
      · intro written _ _
        exact written.1
      · intro proper
        have ordered := Nat.not_lt.mp reversed
        refine ⟨proper (Nat.pos_of_ne_zero both.1) ordered, ordered, readEnd_lt stop, ?_⟩
        rw [if_neg (not_not.mpr noMac)]
        exact fun given => absurd noAddress given
  · rw [if_neg both]
    refine iff_of_true trivial fun first ordered => absurd ⟨first.ne', ?_⟩ both
    exact (Nat.lt_of_lt_of_le first ordered).ne'

/-- A range that is let through is ordered and inside the words, however it is written. -/
theorem processTemplate_ordered {tmpl' : Template}
    (accepted : processTemplate log defaultSize tmpl = some (.ok (ipStart, ipEnd, tmpl'))) :
    ipStart ≤ ipEnd ∧ ipEnd < 2 ^ 32 := by
  unfold processTemplate at accepted
  dsimp only at accepted
  split at accepted
  · unfold macRange at accepted
    split at accepted
    · cases accepted
    · split at accepted
      · cases accepted
      · dsimp only at accepted
        split at accepted
        · cases accepted
        · rename_i ordered
          cases accepted
          exact ⟨Nat.not_lt.mp ordered, Nat.mod_lt _ (by decide)⟩
  · split at accepted
    · cases accepted
    · cases accepted
    · rename_i start stop first last
      split at accepted
      · unfold manualRange at accepted
        split at accepted
        · split at accepted
          · cases accepted
          · rename_i ordered
            cases accepted
            exact ⟨Nat.not_lt.mp ordered, readEnd_lt last⟩
        · cases accepted
      · unfold networkRange at accepted
        dsimp only at accepted
        split at accepted
        · cases accepted
        · cases accepted
        · split at accepted
          · cases accepted
          · rename_i bits _ _
            cases checked : checkRange bits (splitAddress (tmpl.getString "NETWORK_ADDRESS")).1
              (tmpl.getString "IP_START") (tmpl.getString "IP_END") start stop with
            | error e =>
              rw [checked] at accepted
              cases accepted
            | ok range =>
              rw [checked] at accepted
              cases accepted
              obtain ⟨netAddr, _, rfl, fits⟩ :=
                (checkRange_eq_ok_iff (readEnd_lt first) (readEnd_lt last)).mp checked
              exact ⟨fits.2.2.2, endOf_lt (readEnd_lt last)⟩

end Reads

/-- A template of a ranged network is read as it is written, or rejected, exactly under the
conditions of `ReadRight`. -/
theorem asWritten_iff {log : Nat → ℚ} (isLog : Binary64.IsLog log) (defaultSize : Int)
    (tmpl : Template) : AsWritten log defaultSize tmpl ↔ ReadRight defaultSize tmpl := by
  unfold ReadRight
  by_cases noMac : tmpl.getString "MAC_START" = ""
  · rw [if_neg (not_not.mpr noMac)]
    have rejected : (readEnd (tmpl.getString "IP_START") = none ∨
        readEnd (tmpl.getString "IP_END") = none) → AsWritten log defaultSize tmpl := by
      intro malformed
      unfold AsWritten processTemplate
      simp only [noMac, ne_eq, not_true_eq_false, if_false]
      cases start : readEnd (tmpl.getString "IP_START") with
      | none => trivial
      | some ipStart =>
        rw [malformed.resolve_left (by rw [start]; exact Option.some_ne_none _)]
        trivial
    cases start : readEnd (tmpl.getString "IP_START") with
    | none => exact iff_of_true (rejected (.inl start)) fun _ _ is => by cases is
    | some ipStart =>
      cases stop : readEnd (tmpl.getString "IP_END") with
      | none => exact iff_of_true (rejected (.inr stop)) fun _ _ _ is => by cases is
      | some ipEnd =>
        have only : ∀ p : Nat → Nat → Prop, (∀ s e, some ipStart = some s → some ipEnd = some e →
            p s e) ↔ p ipStart ipEnd := fun p =>
          ⟨fun all => all ipStart ipEnd rfl rfl, fun holds s e isStart isStop => by
            cases isStart
            cases isStop
            exact holds⟩
        rw [only]
        by_cases noAddress : tmpl.getString "NETWORK_ADDRESS" = ""
        · rw [if_pos noAddress]
          exact asWritten_manual_iff noMac start stop noAddress
        · rw [if_neg noAddress]
          exact asWritten_network_iff isLog noMac start stop noAddress
  · rw [if_pos noMac]
    exact asWritten_mac_iff noMac

/-- A network of 500 addresses is read as it is written, but one of 2 ^ 29 - 2 addresses gets a
mask for twice as many. -/
theorem asWritten_iff_sized :
    AsWritten Binary64.roundedLog 254
        [.single "NETWORK_ADDRESS" "10.0.0.0", .single "NETWORK_SIZE" "500"] ∧
      ¬ AsWritten Binary64.roundedLog 254
        [.single "NETWORK_ADDRESS" "64.0.0.0", .single "NETWORK_SIZE" "536870910"] := by
  constructor
  · refine (asWritten_iff Binary64.isLog_roundedLog 254 _).mpr ?_
    have bits : looseBits 254
        [.single "NETWORK_ADDRESS" "10.0.0.0", .single "NETWORK_SIZE" "500"] = some (some 9) := by
      decide +kernel
    intro ipStart ipEnd _ _
    rw [if_neg (by decide), bits]
    refine ⟨by decide, fun _ _ _ => ⟨⟨nofun, fun given => absurd rfl given, fun _ _ => ?_⟩, ?_,
      nofun⟩⟩
    · exact ⟨500, by decide, by decide +kernel⟩
    · exact .inr ⟨500, by decide +kernel, by decide, by decide⟩
  · refine (asWritten_iff Binary64.isLog_roundedLog 254 _).not.mpr fun right => ?_
    have bits : looseBits 254 [.single "NETWORK_ADDRESS" "64.0.0.0",
        .single "NETWORK_SIZE" "536870910"] = some (some 30) := by
      decide +kernel
    have accepted := right 0 0 rfl rfl
    rw [if_neg (by decide), bits] at accepted
    obtain ⟨_, proper⟩ := accepted
    obtain ⟨_, well, _⟩ := proper (2 ^ 30) (by decide +kernel)
      ⟨by decide, by decide, by decide, by decide⟩
    obtain ofClass | ⟨n, written, _, other⟩ := well
    · exact ofClass (by decide +kernel)
    · have size : writtenSize 254 "536870910" = some 536870910 := by decide +kernel
      cases size.symm.trans written
      exact other rfl

/-- The network 10.0.0.0/24abc is accepted, and so is 10.0.0.0 with the mask 255.0.255.0, or two
ends beside it; by the MAC address 02:00:0a:00:00:01 and the size 10 there are 11 addresses;
10.0.0.0/0 is undefined. -/
theorem networks_misread :
    ¬ AsWritten Binary64.roundedLog 254 [.single "NETWORK_ADDRESS" "10.0.0.0/24abc"] ∧
      ¬ AsWritten Binary64.roundedLog 254
        [.single "NETWORK_ADDRESS" "10.0.0.0", .single "NETWORK_MASK" "255.0.255.0"] ∧
      ¬ AsWritten Binary64.roundedLog 254
        [.single "IP_START" "10.0.0.1", .single "IP_END" "10.0.0.9",
          .single "NETWORK_MASK" "255.0.255.0"] ∧
      ¬ AsWritten Binary64.roundedLog 254
        [.single "MAC_START" "02:00:0a:00:00:01", .single "NETWORK_SIZE" "10"] ∧
      ¬ AsWritten Binary64.roundedLog 254 [.single "NETWORK_ADDRESS" "10.0.0.0/0"] := by
  have badMask : ¬ ∃ bits ≤ 32, ipToNumber "255.0.255.0" = some (2 ^ 32 - 2 ^ bits) := by
    decide +kernel
  refine ⟨fun written => ?_, fun written => ?_, fun written => ?_, fun written => ?_,
    fun written => ?_⟩
  · have accepted : processTemplate Binary64.roundedLog 254
        [.single "NETWORK_ADDRESS" "10.0.0.0/24abc"] = some (.ok (167772161, 167772414,
          [.single "NETWORK_ADDRESS" "10.0.0.0/24abc",
            .single "NETWORK_MASK" "255.255.255.0"])) := rfl
    unfold AsWritten at written
    rw [accepted] at written
    obtain ⟨p, number, _⟩ := written.1.number "24abc" rfl
    have noNumber : numberOf "24abc" = none := rfl
    exact absurd (noNumber.symm.trans number) (Option.some_ne_none _).symm
  · have accepted : processTemplate Binary64.roundedLog 254
        [.single "NETWORK_ADDRESS" "10.0.0.0", .single "NETWORK_MASK" "255.0.255.0"] =
          some (.ok (167772161, 167772414,
            [.single "NETWORK_ADDRESS" "10.0.0.0", .single "NETWORK_MASK" "255.255.255.0"])) := by
      decide +kernel
    unfold AsWritten at written
    rw [accepted] at written
    exact badMask (written.1.mask (by decide))
  · have accepted : processTemplate Binary64.roundedLog 254
        [.single "IP_START" "10.0.0.1", .single "IP_END" "10.0.0.9",
          .single "NETWORK_MASK" "255.0.255.0"] =
          some (.ok (167772161, 167772169, [.single "NETWORK_MASK" "255.0.255.0"])) := by
      decide +kernel
    unfold AsWritten at written
    rw [accepted] at written
    exact badMask (written.1.mask (by decide))
  · have accepted : processTemplate Binary64.roundedLog 254
        [.single "MAC_START" "02:00:0a:00:00:01", .single "NETWORK_SIZE" "10"] =
          some (.ok (167772161, 167772171, [])) := by decide +kernel
    unfold AsWritten at written
    rw [accepted] at written
    have ten : writtenSize 254 "10" = some 10 := rfl
    exact absurd (Option.some.inj (ten.symm.trans written.2.2.2)) (by decide)
  · exact written

end RangedLeases

end Ezilla
