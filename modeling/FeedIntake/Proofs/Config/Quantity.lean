import FeedIntake.Fetch.Reading
import FeedIntake.Proofs.Bytes.Decimal

/-!
Integers in the environment. `IsInteger` says which texts write an integer, of any size, and which.
Main statement: a quantity that is given alone is loaded exactly as the integer that its text
writes, if that lies between two bounds; any other text is refused, with the one error that says how
far it came. What is loaded as a timeout can be doubled in 32 bits.
-/
namespace FeedIntake

open Bytes

/-- Digits in base ten, and the number that they denote. -/
structure IsDecimal (digits : Bytes) (n : Nat) : Prop where
  written : digits ≠ []
  digital : ∀ b ∈ digits, isDigit b = true
  value : n = Nat.ofDigits 10 (digits.reverse.map fun b => b.toNat - 0x30)

/-- Blanks, a sign or none, and digits, with the integer that they write. -/
inductive IsInteger : Bytes → Int → Prop where
  | unsigned (gap digits : Bytes) (n : Nat) (blank : ∀ b ∈ gap, isBlank b = true)
      (decimal : IsDecimal digits n) : IsInteger (gap ++ digits) n
  | positive (gap digits : Bytes) (n : Nat) (blank : ∀ b ∈ gap, isBlank b = true)
      (decimal : IsDecimal digits n) : IsInteger (gap ++ Mark.plus :: digits) n
  | negative (gap digits : Bytes) (n : Nat) (blank : ∀ b ∈ gap, isBlank b = true)
      (decimal : IsDecimal digits n) : IsInteger (gap ++ Mark.hyphen :: digits) (-n)

/-- The integers of so many bits, one of them for the sign. -/
def Fits (bits : Nat) (n : Int) : Prop := -2 ^ (bits - 1) ≤ n ∧ n < 2 ^ (bits - 1)

instance (bits : Nat) (n : Int) : Decidable (Fits bits n) :=
  inferInstanceAs (Decidable (_ ∧ _))

theorem inRange_int64Range_iff (n : Int) : inRange int64Range n = true ↔ Fits 64 n := by
  rw [inRange, Bool.and_eq_true, decide_eq_true_iff, decide_eq_true_iff, Fits]
  change -0x8000000000000000 ≤ n ∧ n ≤ 0x7FFFFFFFFFFFFFFF ↔ _
  omega

theorem inRange_int32Range_iff (n : Int) : inRange int32Range n = true ↔ Fits 32 n := by
  rw [inRange, Bool.and_eq_true, decide_eq_true_iff, decide_eq_true_iff, Fits]
  change -0x80000000 ≤ n ∧ n ≤ 0x7FFFFFFF ↔ _
  omega

theorem Numeral.decimal?_eq_some_iff_isDecimal (digits : Bytes) (n : Nat) :
    decimal? digits = some n ↔ IsDecimal digits n := by
  rw [decimal?_eq_some_iff]
  constructor
  · rintro ⟨written, digital, rfl⟩
    exact ⟨written, digital, value_eq_ofDigits digits digital⟩
  · rintro ⟨written, digital, rfl⟩
    exact ⟨written, digital, value_eq_ofDigits digits digital⟩

/-- Exactly the texts that write an integer are read, and as what they write. -/
theorem integer?_eq_some_iff (s : Bytes) (n : Int) : integer? s = some n ↔ IsInteger s n := by
  constructor
  · intro read
    have blank : ∀ b ∈ s.takeWhile isBlank, isBlank b = true :=
      List.all_eq_true.1 List.all_takeWhile
    have whole := List.takeWhile_append_dropWhile (p := isBlank) (l := s)
    have decimal (digits : Bytes) (m : Nat) := (Numeral.decimal?_eq_some_iff_isDecimal digits m).1
    rw [integer?] at read
    split at read <;>
      simp only [Option.map_eq_some_iff, Option.bind_eq_bind, Option.bind_eq_some_iff,
        Option.pure_def, Option.some.injEq] at read <;>
      obtain ⟨_, ⟨m, number, rfl⟩, rfl⟩ := read
    · next digits behind =>
      rw [← whole, behind]
      exact .negative _ digits m blank (decimal digits m number)
    · next digits behind =>
      rw [← whole, behind]
      exact .positive _ digits m blank (decimal digits m number)
    · have unsigned := IsInteger.unsigned _ _ m blank (decimal _ m number)
      rwa [whole] at unsigned
  · have behind (gap rest : Bytes) (blank : ∀ b ∈ gap, isBlank b = true)
        (stop : ∀ b ∈ rest.head?, isBlank b = false) :
        (gap ++ rest).dropWhile isBlank = rest :=
      dropWhile_append_of_all isBlank gap rest blank stop
    have read (digits : Bytes) (m : Nat) := (Numeral.decimal?_eq_some_iff_isDecimal digits m).2
    rintro (⟨gap, digits, m, blank, decimal⟩ | ⟨gap, digits, m, blank, decimal⟩ |
      ⟨gap, digits, m, blank, decimal⟩)
    · obtain ⟨b, rest, rfl⟩ := List.exists_cons_of_ne_nil decimal.written
      have digit := decimal.digital b List.mem_cons_self
      rw [integer?, behind gap _ blank (by rintro _ ⟨⟩; exact isBlank_of_isDigit b digit)]
      split
      · next sign => exact absurd ((List.cons.inj sign).1 ▸ digit) (by decide)
      · next sign => exact absurd ((List.cons.inj sign).1 ▸ digit) (by decide)
      · rw [read _ m decimal]
        rfl
    · rw [integer?, behind gap _ blank (by rintro _ ⟨⟩; decide)]
      change Option.map _ (Option.bind (Numeral.decimal? digits) _) = _
      rw [read _ m decimal]
      rfl
    · rw [integer?, behind gap _ blank (by rintro _ ⟨⟩; decide)]
      change Option.map _ (Option.bind (Numeral.decimal? digits) _) = _
      rw [read _ m decimal]
      rfl

theorem filter_integer?_eq_some_iff (text : Bytes) (n : Int) :
    (integer? text).filter (inRange int64Range) = some n ↔ IsInteger text n ∧ Fits 64 n := by
  rw [Option.filter_eq_some_iff, integer?_eq_some_iff, inRange_int64Range_iff]

theorem Reader.timeout_of_relay? (reader : Reader) (options : FetchOptions) (client : Relay.Client)
    (routed : reader.relay? options = .ok (some client)) :
    client.timeout = reader.config.timeout := by
  rw [Reader.relay?] at routed
  dsimp only at routed
  split at routed
  · cases routed
  · split_ifs at routed
    cases routed
    rfl

namespace Config

theorem bounds_of_valid (config : Config) (valid : config.Valid) :
    (1 ≤ config.timeout ∧ config.timeout ≤ 1073741823) ∧ 1 ≤ config.maxContentLength ∧
      0 ≤ config.maxRedirects ∧ 0 ≤ config.poolSize := by
  have limit : timeoutLimit = 1073741823 := rfl
  obtain ⟨-, range⟩ : config.proxyFault? = none ∧ config.rangeFault? = none := by
    simpa [Valid, fault?] using valid
  simp only [rangeFault?, limit, Bool.or_eq_true, decide_eq_true_eq] at range
  split_ifs at range
  omega

/-- The configuration, or what is wrong with it. -/
def checked (config : Config) : Except ConfigError Config :=
  match config.fault? with
  | none => .ok config
  | some fault => .error fault

/-- The settings that are integers. -/
inductive Quantity where
  | timeout
  | maxContentLength
  | maxRedirects
  | poolSize
  deriving DecidableEq, Repr

namespace Quantity

def setting : Quantity → Setting
  | timeout => .timeout
  | maxContentLength => .maxContentLength
  | maxRedirects => .maxRedirects
  | poolSize => .poolSize

/-- How many bits the field of a quantity has. -/
def bits : Quantity → Nat
  | maxContentLength => 64
  | timeout | maxRedirects | poolSize => 32

def least : Quantity → Int
  | timeout | maxContentLength => 1
  | maxRedirects | poolSize => 0

def most : Quantity → Int
  | timeout => 1073741823
  | maxContentLength => 2 ^ 63 - 1
  | maxRedirects | poolSize => 2 ^ 31 - 1

/-- The configuration with one quantity as given and all else as usual. -/
def put (n : Int) : Quantity → Config
  | timeout => { timeout := n }
  | maxContentLength => { maxContentLength := n }
  | maxRedirects => { maxRedirects := n }
  | poolSize => { poolSize := n }

/-- What is wrong with a quantity that is not between its bounds. -/
def refusal (n : Int) : Quantity → ConfigError
  | timeout => .invalidTimeout n
  | maxContentLength => .invalidMaxContentLength n
  | maxRedirects => .invalidMaxRedirects n
  | poolSize => .invalidPoolSize n

def code : Quantity → Bytes
  | timeout => ofString "invalid_timeout"
  | maxContentLength => ofString "invalid_max_content_length"
  | maxRedirects => ofString "invalid_max_redirects"
  | poolSize => ofString "invalid_thread_pool_size"

/-- The environment in which nothing but one quantity is given. -/
def alone (quantity : Quantity) (text : Bytes) : Environment := fun setting =>
  if setting = quantity.setting then text else []

/-- Why a text is refused: it writes no integer of 64 bits, or one that the field cannot hold, or
one that is not between the bounds. -/
inductive Refuses (quantity : Quantity) (text : Bytes) : ConfigError → Prop where
  | unreadable (none : ∀ n, IsInteger text n → ¬ Fits 64 n) :
      Refuses quantity text (.invalidInteger quantity.setting text)
  | tooWide (n : Int) (written : IsInteger text n) (readable : Fits 64 n)
      (wide : ¬ Fits quantity.bits n) :
      Refuses quantity text (.integerOutOfRange quantity.setting n)
  | outside (n : Int) (written : IsInteger text n) (fits : Fits quantity.bits n)
      (beyond : ¬ (quantity.least ≤ n ∧ n ≤ quantity.most)) :
      Refuses quantity text (quantity.refusal n)

variable (quantity : Quantity) (text : Bytes)

theorem readInt64_alone (setting : Setting) (usual : Int) (given : text ≠ []) :
    readInt64 (quantity.alone text) setting usual =
      if setting = quantity.setting then
        match (integer? text).filter (inRange int64Range) with
        | some n => .ok n
        | none => .error (.invalidInteger setting text)
      else .ok usual := by
  rw [readInt64]
  by_cases same : setting = quantity.setting
  · have found : quantity.alone text setting = text := if_pos same
    rw [found]
    cases (integer? text).filter (inRange int64Range) <;>
      exact (if_neg (by simpa using given)).trans (if_pos same).symm
  · have missing : quantity.alone text setting = [] := if_neg same
    rw [missing]
    exact (if_neg same).symm

theorem readInt32_alone (setting : Setting) (usual : Int) (given : text ≠ [])
    (common : Fits 32 usual) :
    readInt32 (quantity.alone text) setting usual =
      if setting = quantity.setting then
        match (integer? text).filter (inRange int64Range) with
        | some n => if Fits 32 n then .ok n else .error (.integerOutOfRange setting n)
        | none => .error (.invalidInteger setting text)
      else .ok usual := by
  rw [readInt32, readInt64_alone quantity text setting usual given]
  split
  · cases (integer? text).filter (inRange int64Range) with
    | none => rfl
    | some n => simp [bind, Except.bind, inRange_int32Range_iff]
  · simp [bind, Except.bind, inRange_int32Range_iff, common]

/-- The integer that is loaded for a quantity, before its bounds are looked at. -/
def read : Except ConfigError Int :=
  match (integer? text).filter (inRange int64Range) with
  | some n =>
    if Fits quantity.bits n then .ok n else .error (.integerOutOfRange quantity.setting n)
  | none => .error (.invalidInteger quantity.setting text)

theorem load_alone (given : text ≠ []) (secret : Option Bytes) :
    load (quantity.alone text) secret =
      (quantity.read text).bind fun n => (quantity.put n).checked := by
  have token : readToken (quantity.alone text) secret = .ok none := by
    cases quantity <;> simp [readToken, secretPath?, alone, setting]
  simp only [load, token, read]
  cases taken : (integer? text).filter (inRange int64Range) with
  | none =>
    cases quantity <;>
      simp (disch := decide) [setting, readInt32_alone _ text _ _ given,
        readInt64_alone _ text _ _ given, taken, bind, Except.bind]
  | some n =>
    have wide := ((filter_integer?_eq_some_iff text n).1 taken).2
    cases quantity <;> by_cases narrow : Fits 32 n <;>
      simp (disch := decide) [setting, readInt32_alone _ text _ _ given, bits, put, alone,
        readInt64_alone _ text _ _ given, taken, bind, Except.bind, narrow, wide] <;>
      rfl

/-- What fits the field is valid between the bounds and nowhere else. -/
theorem fault?_put (n : Int) (fits : Fits quantity.bits n) :
    ((quantity.least ≤ n ∧ n ≤ quantity.most) ∧ (quantity.put n).fault? = none) ∨
      (¬ (quantity.least ≤ n ∧ n ≤ quantity.most) ∧
        (quantity.put n).fault? = some (quantity.refusal n)) := by
  have limit : timeoutLimit = 1073741823 := rfl
  have range : (quantity.put n).fault? = (quantity.put n).rangeFault? := by cases quantity <;> rfl
  rw [range]
  by_cases within : quantity.least ≤ n ∧ n ≤ quantity.most
  · refine .inl ⟨within, ?_⟩
    cases quantity <;> simp only [put, least, most] at within ⊢ <;> simp [rangeFault?, limit] <;>
      omega
  · refine .inr ⟨within, ?_⟩
    cases quantity <;> simp only [put, least, most, refusal, bits, Fits] at within fits ⊢ <;>
      simp [rangeFault?, limit] <;> omega

theorem read_of_fits (n : Int) (written : IsInteger text n) (fits : Fits quantity.bits n) :
    quantity.read text = .ok n := by
  have wide : Fits 64 n := by
    cases quantity <;> simp only [bits, Fits] at fits ⊢ <;> omega
  rw [read, (filter_integer?_eq_some_iff text n).2 ⟨written, wide⟩]
  exact if_pos fits

theorem load_of_within (n : Int) (written : IsInteger text n) (given : text ≠ [])
    (within : quantity.least ≤ n ∧ n ≤ quantity.most) (secret : Option Bytes) :
    load (quantity.alone text) secret = .ok (quantity.put n) := by
  have fits : Fits quantity.bits n := by
    cases quantity <;> simp only [least, most, bits, Fits] at within ⊢ <;> omega
  rw [load_alone quantity text given, read_of_fits quantity text n written fits]
  rcases quantity.fault?_put n fits with ⟨-, valid⟩ | ⟨beyond, -⟩
  · simp only [Except.bind, checked, valid]
  · exact absurd within beyond

theorem load_of_refuses (error : ConfigError) (refuses : quantity.Refuses text error)
    (given : text ≠ []) (secret : Option Bytes) :
    load (quantity.alone text) secret = .error error := by
  rw [load_alone quantity text given]
  cases refuses with
  | unreadable none =>
    have nothing : (integer? text).filter (inRange int64Range) = .none :=
      Option.eq_none_iff_forall_ne_some.2 fun n taken =>
        have ⟨written, readable⟩ := (filter_integer?_eq_some_iff text n).1 taken
        none n written readable
    rw [read, nothing]
    rfl
  | tooWide n written readable wide =>
    rw [read, (filter_integer?_eq_some_iff text n).2 ⟨written, readable⟩]
    simp only [if_neg wide, Except.bind]
  | outside n written fits beyond =>
    rw [read_of_fits quantity text n written fits]
    rcases quantity.fault?_put n fits with ⟨within, -⟩ | ⟨-, fault⟩
    · exact absurd within beyond
    · simp only [Except.bind, checked, fault]

/-- A text either writes an integer between the bounds or is refused. -/
theorem within_or_refuses :
    (∃ n, IsInteger text n ∧ quantity.least ≤ n ∧ n ≤ quantity.most) ∨
      ∃ error, quantity.Refuses text error := by
  by_cases readable : ∃ n, IsInteger text n ∧ Fits 64 n
  · obtain ⟨n, written, readable⟩ := readable
    by_cases fits : Fits quantity.bits n
    · by_cases within : quantity.least ≤ n ∧ n ≤ quantity.most
      · exact .inl ⟨n, written, within⟩
      · exact .inr ⟨_, .outside n written fits within⟩
    · exact .inr ⟨_, .tooWide n written readable fits⟩
  · exact .inr ⟨_, .unreadable fun n written fits => readable ⟨n, written, fits⟩⟩

/-- A quantity that is given alone is loaded exactly as the integer that its text writes, if that is
between the bounds, and is refused otherwise. A request to a relay has twice the timeout, and that
fits 32 bits whatever valid configuration it comes from. -/
theorem load_exact (given : text ≠ []) (secret : Option Bytes) :
    (∀ config, load (quantity.alone text) secret = .ok config ↔
      ∃ n, IsInteger text n ∧ (quantity.least ≤ n ∧ n ≤ quantity.most) ∧
        config = quantity.put n) ∧
    (∀ error, load (quantity.alone text) secret = .error error ↔ quantity.Refuses text error) ∧
    (∀ n, (ConfigError.invalidInteger quantity.setting text).code = ofString "invalid_integer" ∧
      (ConfigError.integerOutOfRange quantity.setting n).code = ofString "integer_out_of_range" ∧
      (quantity.refusal n).code = quantity.code) ∧
    ∀ (reader : Reader) (options : FetchOptions) (client : Relay.Client),
      reader.relay? options = .ok (some client) → ∀ url headers,
        (client.request url headers).timeout = 2 * reader.config.timeout ∧
        Fits 32 (client.request url headers).timeout := by
  refine ⟨fun config => ⟨fun loaded => ?_, ?_⟩, fun error => ⟨fun refused => ?_, fun refuses => ?_⟩,
    fun n => ⟨rfl, rfl, by cases quantity <;> rfl⟩,
    fun reader options client routed url headers => ?_⟩
  · rcases quantity.within_or_refuses text with ⟨n, written, within⟩ | ⟨error, refuses⟩
    · rw [load_of_within quantity text n written given within] at loaded
      exact ⟨n, written, within, (Except.ok.inj loaded).symm⟩
    · rw [load_of_refuses quantity text error refuses given] at loaded
      cases loaded
  · rintro ⟨n, written, within, rfl⟩
    exact load_of_within quantity text n written given within secret
  · rcases quantity.within_or_refuses text with ⟨n, written, within⟩ | ⟨other, refuses⟩
    · rw [load_of_within quantity text n written given within] at refused
      cases refused
    · rw [load_of_refuses quantity text other refuses given] at refused
      exact Except.error.inj refused ▸ refuses
  · exact load_of_refuses quantity text error refuses given secret
  · obtain ⟨⟨least, most⟩, -⟩ := reader.config.bounds_of_valid reader.valid
    have timeout := reader.timeout_of_relay? options client routed
    have doubled : (client.request url headers).timeout = 2 * reader.config.timeout := by
      rw [Relay.Client.request, timeout, Int.mul_comm]
    refine ⟨doubled, ?_⟩
    rw [doubled, Fits]
    omega

/-- The longest timeout, with blanks, a sign and a zero in front. -/
theorem load_exact_longestTimeout :
    ofString "\t +01073741823" ≠ [] ∧
      load (timeout.alone (ofString "\t +01073741823")) none = .ok { timeout := 1073741823 } := by
  refine ⟨by decide, ((load_exact timeout _ (by decide) none).1 _).2 ⟨1073741823, ?_, ?_, rfl⟩⟩
  · exact .positive (ofString "\t ") (ofString "01073741823") 1073741823
      (List.all_eq_true.1 (by decide)) ⟨by decide, List.all_eq_true.1 (by decide), by decide⟩
  · decide

end Quantity

end Config

end FeedIntake
