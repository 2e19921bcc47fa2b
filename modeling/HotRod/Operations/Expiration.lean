import HotRod.Operations.Commands

/-! The lifespan and the maximal idle time of a write, from the call to the request.

`RemoteCache` converts both to seconds in 64 bits, `RemoteCacheBase` takes them as
signed, and `OperationsFactory` stores them in 32 bits. The codecs get 64 bits again:
the check for an overflow in `Codec20` comes after the truncation. -/

set_option autoImplicit false

namespace HotRod.Operations.Expiration

open Protocol
open WireFormat (Parser parse)

inductive TimeUnit where
  | SECONDS | MILLISECONDS | NANOSECONDS | MICROSECONDS | MINUTES | HOURS | DAYS | DEFAULT
  | INFINITUM
  deriving DecidableEq, Repr

namespace TimeUnit

def code : TimeUnit → UInt8
  | SECONDS => 0x00 | MILLISECONDS => 0x01 | NANOSECONDS => 0x02 | MICROSECONDS => 0x03
  | MINUTES => 0x04 | HOURS => 0x05 | DAYS => 0x06 | DEFAULT => 0x07 | INFINITUM => 0x08

def ofCode (code : UInt8) : Option TimeUnit :=
  [SECONDS, MILLISECONDS, NANOSECONDS, MICROSECONDS, MINUTES, HOURS, DAYS, DEFAULT,
    INFINITUM].find? fun unit => unit.code == code

theorem ofCode_code (unit : TimeUnit) : ofCode unit.code = some unit := by
  cases unit <;> decide

end TimeUnit

open TimeUnit

/-! ### What the client sends -/

section Client

-- `ceil(time / divisor)` in the arithmetic of `double`
variable (ceilQuotient : UInt64 → UInt64 → UInt64)

def toSeconds (time : UInt64) : TimeUnit → Except Exn UInt64
  | NANOSECONDS => pure (ceilQuotient time 1000000000)
  | MICROSECONDS => pure (ceilQuotient time 1000000)
  | MILLISECONDS => pure (ceilQuotient time 1000)
  | SECONDS => pure time
  | MINUTES => pure (time * 60)
  | HOURS => pure (time * 3600)
  | DAYS => pure (time * 86400)
  | unit => throw (.std ("Unhandled TimeUnit specified: " ++ toString unit.code.toNat ++ "."))

-- `newPutKeyValueOperation`, `newPutIfAbsentOperation` and `newReplaceOperation`, with the
-- conversion of their arguments.
def newKeyValueOperation (key value : List UInt8) (life idle : UInt64) : Entry where
  key
  value
  lifespan := life.toUInt32
  maxIdle := idle.toUInt32

-- The way of a write down to its operation, on a cache that is not transactional: `base_put` and
-- its siblings take an `int64_t`, `RemoteCacheImpl` an `uint64_t` again.
def keyValueEntry (key value : List UInt8) (lifespan : UInt64) (lifespanUnit : TimeUnit)
    (maxIdle : UInt64) (maxIdleUnit : TimeUnit) : Except Exn Entry := do
  let life : Int64 := (← toSeconds ceilQuotient lifespan lifespanUnit).toInt64
  let idle : Int64 := (← toSeconds ceilQuotient maxIdle maxIdleUnit).toInt64
  pure (newKeyValueOperation key value life.toUInt64 idle.toUInt64)

inductive Write where
  | put | putIfAbsent | replace
  deriving DecidableEq, Repr

def Write.command : Write → Entry → Command
  | put => .put
  | putIfAbsent => .putIfAbsent
  | replace => .replace

theorem Write.command_injective (write : Write) {e e' : Entry}
    (same : write.command e = write.command e') : e = e' := by
  cases write <;> injection same

def Write.call (write : Write) (key value : List UInt8) (lifespan : UInt64)
    (lifespanUnit : TimeUnit) (maxIdle : UInt64) (maxIdleUnit : TimeUnit) : Except Exn Command :=
  write.command <$> keyValueEntry ceilQuotient key value lifespan lifespanUnit maxIdle maxIdleUnit

end Client

/-! ### The codecs -/

def Codec20.writeExpirationParams (lifespan maxIdle : UInt64) : Except Exn (List UInt8) :=
  let lInt := lifespan.toUInt32
  let mInt := maxIdle.toUInt32
  if lInt.toUInt64 ≠ lifespan then throw (.hotRodClient "lifespan exceed 32bit integer")
  else if mInt.toUInt64 ≠ maxIdle then throw (.hotRodClient "maxIdle exceed 32bit integer")
  else pure (writeVInt lInt ++ writeVInt mInt)

def encodeDuration (duration : UInt64) (timeUnit : TimeUnit) : TimeUnit :=
  if duration = 0 then DEFAULT else timeUnit

def encodeTimeUnits (lifespan : UInt64) (lifespanTimeUnit : TimeUnit) (maxIdle : UInt64)
    (maxIdleTimeUnit : TimeUnit) : UInt8 :=
  (encodeDuration lifespan lifespanTimeUnit).code <<< 4
    ||| (encodeDuration maxIdle maxIdleTimeUnit).code

def Codec22.writeExpirationParams (lifespan maxIdle : UInt64) : Except Exn (List UInt8) :=
  let timeCode := encodeTimeUnits lifespan SECONDS maxIdle SECONDS
  let lsTimeCode := timeCode >>> 4
  let miTimeCode := timeCode &&& 0x0F
  pure (writeByte timeCode
    ++ (if lsTimeCode ≠ DEFAULT.code ∧ lsTimeCode ≠ INFINITUM.code then writeVLong lifespan else [])
    ++ if miTimeCode ≠ DEFAULT.code ∧ miTimeCode ≠ INFINITUM.code then writeVLong maxIdle else [])

-- The codecs between the two, and those after, inherit.
def writeExpirationParams (codec : Codec) (lifespan maxIdle : UInt64) :
    Except Exn (List UInt8) :=
  if codec.protocolVersion < 22 then Codec20.writeExpirationParams lifespan maxIdle
  else Codec22.writeExpirationParams lifespan maxIdle

/-! ### What the server reads -/

inductive Duration where
  | serverDefault
  | infinite
  | of (unit : TimeUnit) (time : UInt64)
  deriving DecidableEq, Repr

/-- A number of parts of a second, if they are whole seconds. -/
def wholeSeconds (parts perSecond : Nat) : Option Nat :=
  if perSecond ∣ parts then some (parts / perSecond) else none

-- The number of seconds that a duration denotes; 0 stands for the server's default.
def Duration.seconds : Duration → Option Nat
  | serverDefault => some 0
  | infinite => none
  | of SECONDS time => some time.toNat
  | of MINUTES time => some (time.toNat * 60)
  | of HOURS time => some (time.toNat * 3600)
  | of DAYS time => some (time.toNat * 86400)
  | of MILLISECONDS time => wholeSeconds time.toNat 1000
  | of MICROSECONDS time => wholeSeconds time.toNat 1000000
  | of NANOSECONDS time => wholeSeconds time.toNat 1000000000
  | of DEFAULT _ => some 0
  | of INFINITUM _ => none

def readDuration (timeCode : UInt8) : Parser Duration :=
  match ofCode timeCode with
  | none => fun _ => none
  | some DEFAULT => pure .serverDefault
  | some INFINITUM => pure .infinite
  | some unit => do
    let time ← WireFormat.vLong.parse
    pure (.of unit time)

def ofSeconds (time : UInt32) : Duration :=
  if time = 0 then .serverDefault else .of SECONDS time.toUInt64

/-- The expiration parameters of a request; units came with protocol version 2.2. -/
def readExpirationParams (codec : Codec) : Parser (Duration × Duration) :=
  if codec.protocolVersion < 22 then do
    let lifespan ← WireFormat.vInt.parse
    let maxIdle ← WireFormat.vInt.parse
    pure (ofSeconds lifespan, ofSeconds maxIdle)
  else do
    let timeCode ← WireFormat.byte.parse
    let lifespan ← readDuration (timeCode >>> 4)
    let maxIdle ← readDuration (timeCode &&& 0x0F)
    pure (lifespan, maxIdle)

/-! ### What arrives -/

theorem toUInt64_eq_zero (n : UInt32) : n.toUInt64 = 0 ↔ n = 0 := by
  rw [← UInt64.toNat_inj, ← UInt32.toNat_inj, UInt32.toNat_toUInt64]
  rfl

theorem encodeDuration_seconds (duration : UInt64) :
    encodeDuration duration SECONDS = DEFAULT ∨ encodeDuration duration SECONDS = SECONDS := by
  unfold encodeDuration
  split
  · exact .inl rfl
  · exact .inr rfl

theorem timeCode_lifespan (lifespan maxIdle : UInt64) :
    encodeTimeUnits lifespan SECONDS maxIdle SECONDS >>> 4 =
      (encodeDuration lifespan SECONDS).code := by
  unfold encodeTimeUnits
  obtain first | first := encodeDuration_seconds lifespan <;>
    obtain second | second := encodeDuration_seconds maxIdle <;>
      rw [first, second] <;> rfl

theorem timeCode_maxIdle (lifespan maxIdle : UInt64) :
    encodeTimeUnits lifespan SECONDS maxIdle SECONDS &&& 0x0F =
      (encodeDuration maxIdle SECONDS).code := by
  unfold encodeTimeUnits
  obtain first | first := encodeDuration_seconds lifespan <;>
    obtain second | second := encodeDuration_seconds maxIdle <;>
      rw [first, second] <;> rfl

theorem code_encodeDuration (duration : UInt64) :
    (encodeDuration duration SECONDS).code = if duration = 0 then 0x07 else 0x00 := by
  unfold encodeDuration
  split <;> rfl

theorem sends_iff (duration : UInt64) :
    ((encodeDuration duration SECONDS).code ≠ DEFAULT.code ∧
      (encodeDuration duration SECONDS).code ≠ INFINITUM.code) ↔ ¬ duration = 0 := by
  rw [code_encodeDuration]
  split
  · next zero => exact iff_of_false (fun both => both.1 rfl) (not_not_intro zero)
  · next nonzero => exact iff_of_true (by decide) nonzero

theorem codec22_written (lifespan maxIdle : UInt64) :
    Codec22.writeExpirationParams lifespan maxIdle =
      .ok (writeByte (encodeTimeUnits lifespan SECONDS maxIdle SECONDS)
        ++ (if lifespan = 0 then [] else writeVLong lifespan)
        ++ if maxIdle = 0 then [] else writeVLong maxIdle) := by
  simp only [Codec22.writeExpirationParams, timeCode_lifespan, timeCode_maxIdle, sends_iff,
    ite_not]
  rfl

theorem writeExpirationParams_stored (codec : Codec) (lifespan maxIdle : UInt32) :
    writeExpirationParams codec lifespan.toUInt64 maxIdle.toUInt64 =
      .ok (Operations.writeExpirationParams codec lifespan maxIdle) := by
  unfold writeExpirationParams Operations.writeExpirationParams
  split
  · rw [Codec20.writeExpirationParams, UInt32.toUInt32_toUInt64, UInt32.toUInt32_toUInt64,
      if_neg (not_not_intro rfl), if_neg (not_not_intro rfl)]
    rfl
  · rw [codec22_written, encodeTimeUnits, code_encodeDuration, code_encodeDuration]
    simp only [toUInt64_eq_zero]

-- What a duration of 64 bits is read as.
def ofLong (time : UInt64) : Duration := if time = 0 then .serverDefault else .of SECONDS time

theorem ofLong_toUInt64 (time : UInt32) : ofLong time.toUInt64 = ofSeconds time := by
  simp only [ofLong, ofSeconds, toUInt64_eq_zero]

theorem readDuration_ofLong (time : UInt64) (rest : List UInt8) :
    readDuration (encodeDuration time SECONDS).code
      ((if time = 0 then [] else writeVLong time) ++ rest) = some (ofLong time, rest) := by
  by_cases zero : time = 0
  · rw [zero]
    rfl
  · have nonzero : encodeDuration time SECONDS = SECONDS := if_neg zero
    rw [nonzero, if_neg zero, ofLong, if_neg zero]
    change (WireFormat.vLong.parse >>= fun n => pure (Duration.of SECONDS n)) _ = _
    rw [WireFormat.parser_bind_apply, WireFormat.parse, writeVLong,
      WireFormat.decode_encode_append]
    rfl

theorem readDuration_ofSeconds (time : UInt32) (rest : List UInt8) :
    readDuration (encodeDuration time.toUInt64 SECONDS).code
      ((if time = 0 then [] else writeVLong time.toUInt64) ++ rest) =
        some (ofSeconds time, rest) := by
  simpa only [ofLong_toUInt64, toUInt64_eq_zero] using readDuration_ofLong time.toUInt64 rest

theorem readExpirationParams_stored (codec : Codec) (lifespan maxIdle : UInt32)
    (rest : List UInt8) :
    readExpirationParams codec (Operations.writeExpirationParams codec lifespan maxIdle ++ rest) =
      some ((ofSeconds lifespan, ofSeconds maxIdle), rest) := by
  unfold readExpirationParams Operations.writeExpirationParams
  split
  · simp only [WireFormat.parser_bind_apply, WireFormat.parse, writeVInt, List.append_assoc,
      WireFormat.decode_encode_append, Option.bind_some]
    rfl
  · have units : (if lifespan = 0 then (0x07 : UInt8) else 0x00) <<< 4
        ||| (if maxIdle = 0 then 0x07 else 0x00) =
          encodeTimeUnits lifespan.toUInt64 SECONDS maxIdle.toUInt64 SECONDS := by
      simp only [encodeTimeUnits, code_encodeDuration, toUInt64_eq_zero]
    simp only [units, List.append_assoc, WireFormat.parser_bind_apply, WireFormat.parse, writeByte,
      WireFormat.decode_encode_append, Option.bind_some, timeCode_lifespan, timeCode_maxIdle,
      readDuration_ofSeconds]
    rfl

theorem ofSeconds_seconds (time : UInt32) : (ofSeconds time).seconds = some time.toNat := by
  unfold ofSeconds
  split
  · next zero =>
    rw [zero]
    rfl
  · rfl

-- The units in which a duration is a number of seconds.
inductive WholeUnit where
  | SECONDS | MINUTES | HOURS | DAYS
  deriving DecidableEq, Repr

namespace WholeUnit

def unit : WholeUnit → TimeUnit
  | SECONDS => .SECONDS | MINUTES => .MINUTES | HOURS => .HOURS | DAYS => .DAYS

def seconds : WholeUnit → Nat
  | SECONDS => 1 | MINUTES => 60 | HOURS => 3600 | DAYS => 86400

end WholeUnit

def requested (time : UInt64) (unit : WholeUnit) : Nat := time.toNat * unit.seconds

theorem toSeconds_whole (ceilQuotient : UInt64 → UInt64 → UInt64) (time : UInt64)
    (unit : WholeUnit) :
    toSeconds ceilQuotient time unit.unit = .ok (UInt64.ofNat (requested time unit)) := by
  cases unit with
  | SECONDS => simp [toSeconds, WholeUnit.unit, requested, WholeUnit.seconds]; rfl
  | MINUTES => simp [toSeconds, WholeUnit.unit, requested, WholeUnit.seconds]; rfl
  | HOURS => simp [toSeconds, WholeUnit.unit, requested, WholeUnit.seconds]; rfl
  | DAYS => simp [toSeconds, WholeUnit.unit, requested, WholeUnit.seconds]; rfl

theorem keyValueEntry_whole (ceilQuotient : UInt64 → UInt64 → UInt64) (key value : List UInt8)
    (lifespan maxIdle : UInt64) (lifespanUnit maxIdleUnit : WholeUnit) :
    keyValueEntry ceilQuotient key value lifespan lifespanUnit.unit maxIdle maxIdleUnit.unit =
      .ok {
        key, value
        lifespan := UInt32.ofNat (requested lifespan lifespanUnit)
        maxIdle := UInt32.ofNat (requested maxIdle maxIdleUnit) } := by
  have stored : ∀ n : Nat, (UInt64.ofNat n).toInt64.toUInt64.toUInt32 = UInt32.ofNat n := by
    intro n
    rw [UInt64.toUInt64_toInt64, UInt64.toUInt32_ofNat']
  rw [keyValueEntry, toSeconds_whole, toSeconds_whole]
  change Except.ok (newKeyValueOperation _ _ _ _) = _
  rw [newKeyValueOperation, stored, stored]

/-- The parameters denote these numbers of seconds, whatever follows them. -/
def Denote (codec : Codec) (params : List UInt8) (lifespan maxIdle : Nat) : Prop :=
  ∀ rest, ∃ life idle, readExpirationParams codec (params ++ rest) = some ((life, idle), rest) ∧
    life.seconds = some lifespan ∧ idle.seconds = some maxIdle

theorem denote_stored_iff (codec : Codec) (life idle : UInt32) (lifespan maxIdle : Nat) :
    Denote codec (Operations.writeExpirationParams codec life idle) lifespan maxIdle ↔
      life.toNat = lifespan ∧ idle.toNat = maxIdle := by
  constructor
  · intro denote
    obtain ⟨dl, di, read, first, second⟩ := denote []
    rw [readExpirationParams_stored] at read
    cases read
    rw [ofSeconds_seconds] at first second
    exact ⟨Option.some.inj first, Option.some.inj second⟩
  · rintro ⟨rfl, rfl⟩ rest
    exact ⟨_, _, readExpirationParams_stored codec life idle rest, ofSeconds_seconds life,
      ofSeconds_seconds idle⟩

/-- The body of the request carries the durations between the key and the value. -/
def Carries (o : HotRodOperation) (e : Entry) (lifespan maxIdle : Nat) : Prop :=
  ∃ params, putBody o e = writeArray e.key ++ params ++ writeArray e.value ∧
    Denote o.codec params lifespan maxIdle

theorem carries_iff (o : HotRodOperation) (e : Entry) (lifespan maxIdle : Nat) :
    Carries o e lifespan maxIdle ↔ e.lifespan.toNat = lifespan ∧ e.maxIdle.toNat = maxIdle := by
  constructor
  · rintro ⟨params, body, denote⟩
    have same := List.append_cancel_right body
    rw [← List.append_cancel_left same, denote_stored_iff] at denote
    exact denote
  · intro both
    exact ⟨_, rfl, (denote_stored_iff _ _ _ _ _).mpr both⟩

/-- A call either raises, or its request carries exactly the seconds it asks for. -/
def Exact (ceilQuotient : UInt64 → UInt64 → UInt64) (write : Write) (o : HotRodOperation)
    (key value : List UInt8) (lifespan : UInt64) (lifespanUnit : WholeUnit) (maxIdle : UInt64)
    (maxIdleUnit : WholeUnit) : Prop :=
  ∀ e, write.call ceilQuotient key value lifespan lifespanUnit.unit maxIdle maxIdleUnit.unit =
      .ok (write.command e) →
    Carries o e (requested lifespan lifespanUnit) (requested maxIdle maxIdleUnit)

/-- No call raises, and what is asked for is sent where it is less than 2^32 seconds. -/
theorem exact_iff (ceilQuotient : UInt64 → UInt64 → UInt64) (write : Write) (o : HotRodOperation)
    (key value : List UInt8) (lifespan : UInt64) (lifespanUnit : WholeUnit) (maxIdle : UInt64)
    (maxIdleUnit : WholeUnit) :
    Exact ceilQuotient write o key value lifespan lifespanUnit maxIdle maxIdleUnit ↔
      requested lifespan lifespanUnit < 2 ^ 32 ∧ requested maxIdle maxIdleUnit < 2 ^ 32 := by
  have fits : ∀ n : Nat, (UInt32.ofNat n).toNat = n ↔ n < 2 ^ 32 := by
    intro n
    rw [UInt32.toNat_ofNat']
    exact Nat.mod_eq_iff_lt (by decide)
  have call := congrArg (write.command <$> ·)
    (keyValueEntry_whole ceilQuotient key value lifespan maxIdle lifespanUnit maxIdleUnit)
  constructor
  · intro carries
    have sent := (carries_iff _ _ _ _).mp (carries _ call)
    exact ⟨(fits _).mp sent.1, (fits _).mp sent.2⟩
  · intro both e made
    have same := Except.ok.inj (call.symm.trans made)
    have entry := write.command_injective same
    rw [← entry]
    exact (carries_iff _ _ _ _).mpr ⟨(fits _).mpr both.1, (fits _).mpr both.2⟩

/-- 49711 days are a little more than 2^32 seconds. -/
theorem not_exact_of_days :
    ¬ ∀ (ceilQuotient : UInt64 → UInt64 → UInt64) (write : Write) (o : HotRodOperation)
        (key value : List UInt8) (lifespan : UInt64) (lifespanUnit : WholeUnit) (maxIdle : UInt64)
        (maxIdleUnit : WholeUnit),
      Exact ceilQuotient write o key value lifespan lifespanUnit maxIdle maxIdleUnit := by
  intro all
  let o : HotRodOperation :=
    { codec := .codec20
      flags := 0
      cacheName := []
      topologyId := 0
      dataFormat := none
      messageId := 1
      factory := { getTopologyId := none, topologyAge := 0, update := fun _ _ => none } }
  have exact := all (fun time _ => time) .put o [0x6B] [0x76] 49711 .DAYS 0 .SECONDS
  have small := (keyValueEntry_whole (fun time _ => time) [0x6B] [0x76] 49711 0 .DAYS .SECONDS)
  have carries := (carries_iff _ _ _ _).mp (exact _ (congrArg (Write.put.command <$> ·) small))
  exact absurd carries.1 (by decide)

/-! ### One encoding against the other -/

/-- What is written is read as the two durations, whatever follows it. -/
def Encodes (codec : Codec) (written : Except Exn (List UInt8)) (lifespan maxIdle : UInt64) :
    Prop :=
  ∃ params, written = .ok params ∧ ∀ rest,
    readExpirationParams codec (params ++ rest) = some ((ofLong lifespan, ofLong maxIdle), rest)

theorem codec22_encodes (lifespan maxIdle : UInt64) :
    Encodes .codec22 (Codec22.writeExpirationParams lifespan maxIdle) lifespan maxIdle := by
  refine ⟨_, codec22_written lifespan maxIdle, ?_⟩
  intro rest
  have units : ¬ Codec.codec22.protocolVersion < 22 := by decide
  rw [readExpirationParams, if_neg units]
  simp only [List.append_assoc, WireFormat.parser_bind_apply, WireFormat.parse, writeByte,
    WireFormat.decode_encode_append, Option.bind_some, timeCode_lifespan, timeCode_maxIdle,
    readDuration_ofLong]
  rfl

-- A cast to 32 bits and back keeps exactly what fits.
theorem toUInt64_toUInt32_eq_iff (duration : UInt64) :
    duration.toUInt32.toUInt64 = duration ↔ duration.toNat < 2 ^ 32 := by
  rw [← UInt64.toNat_inj, UInt32.toNat_toUInt64, UInt64.toNat_toUInt32]
  exact Nat.mod_eq_iff_lt (by decide)

-- The guards of `Codec20` take the lifespan first; nothing has been written when one of them
-- raises.
theorem codec20_written (lifespan maxIdle : UInt64) :
    Codec20.writeExpirationParams lifespan maxIdle =
      if 2 ^ 32 ≤ lifespan.toNat then .error (.hotRodClient "lifespan exceed 32bit integer")
      else if 2 ^ 32 ≤ maxIdle.toNat then .error (.hotRodClient "maxIdle exceed 32bit integer")
      else .ok (writeVInt lifespan.toUInt32 ++ writeVInt maxIdle.toUInt32) := by
  simp only [Codec20.writeExpirationParams, ne_eq, toUInt64_toUInt32_eq_iff, Nat.not_lt]
  rfl

theorem codec20_raises_iff (lifespan maxIdle : UInt64) :
    (∃ e, Codec20.writeExpirationParams lifespan maxIdle = .error e) ↔
      2 ^ 32 ≤ lifespan.toNat ∨ 2 ^ 32 ≤ maxIdle.toNat := by
  rw [codec20_written]
  by_cases long : 2 ^ 32 ≤ lifespan.toNat
  · rw [if_pos long]
    exact iff_of_true ⟨_, rfl⟩ (.inl long)
  · by_cases idle : 2 ^ 32 ≤ maxIdle.toNat
    · rw [if_neg long, if_pos idle]
      exact iff_of_true ⟨_, rfl⟩ (.inr idle)
    · rw [if_neg long, if_neg idle]
      exact iff_of_false (fun raised => by cases raised.choose_spec) (by tauto)

theorem codec20_encodes {lifespan maxIdle : UInt64} (short : lifespan.toNat < 2 ^ 32)
    (brief : maxIdle.toNat < 2 ^ 32) :
    Encodes .codec20 (Codec20.writeExpirationParams lifespan maxIdle) lifespan maxIdle := by
  have written := codec20_written lifespan maxIdle
  rw [if_neg (Nat.not_le.mpr short), if_neg (Nat.not_le.mpr brief)] at written
  refine ⟨_, written, ?_⟩
  intro rest
  have seconds : Codec.codec20.protocolVersion < 22 := by decide
  -- what the casts keep is the whole duration
  rw [← (toUInt64_toUInt32_eq_iff lifespan).mpr short, ← (toUInt64_toUInt32_eq_iff maxIdle).mpr brief,
    ofLong_toUInt64, ofLong_toUInt64, UInt32.toUInt32_toUInt64, UInt32.toUInt32_toUInt64]
  have stored := readExpirationParams_stored .codec20 lifespan.toUInt32 maxIdle.toUInt32 rest
  rwa [Operations.writeExpirationParams, if_pos seconds] at stored

/-- `Codec22` always encodes the two durations, and `Codec20` does unless one of them needs more
than 32 bits, in which case it raises. -/
theorem encodings_agree (lifespan maxIdle : UInt64) :
    Encodes .codec22 (Codec22.writeExpirationParams lifespan maxIdle) lifespan maxIdle ∧
      ((∃ e, Codec20.writeExpirationParams lifespan maxIdle = .error e) ↔
        2 ^ 32 ≤ lifespan.toNat ∨ 2 ^ 32 ≤ maxIdle.toNat) ∧
      ((∃ e, Codec20.writeExpirationParams lifespan maxIdle = .error e) ∨
        Encodes .codec20 (Codec20.writeExpirationParams lifespan maxIdle) lifespan maxIdle) := by
  refine ⟨codec22_encodes lifespan maxIdle, codec20_raises_iff lifespan maxIdle, ?_⟩
  by_cases large : 2 ^ 32 ≤ lifespan.toNat ∨ 2 ^ 32 ≤ maxIdle.toNat
  · exact .inl ((codec20_raises_iff lifespan maxIdle).mpr large)
  · rw [not_or, Nat.not_le, Nat.not_le] at large
    exact .inr (codec20_encodes large.1 large.2)

end HotRod.Operations.Expiration
