import Mathlib.Data.List.Basic
import Mathlib.Data.Rat.Defs
import Mathlib.Algebra.Order.Ring.Rat

namespace http_io

inductive Failure where
  | timeout_error
  | value_error
deriving DecidableEq

def newline : UInt8 := 10

/-! ### Reading a plain list of bytes -/

/-- The bytes up to the first newline, at most as many as the limit. -/
def line : Nat → List UInt8 → List UInt8
  | 0, _ => []
  | _ + 1, [] => []
  | limit + 1, byte :: rest => if byte = newline then [byte] else byte :: line limit rest

/-- A line ends at the first newline, after the limit or with the bytes, whichever comes first. -/
structure EndsLine (limit : Nat) (bytes text : List UInt8) : Prop where
  front : text <+: bytes
  bounded : text.length ≤ limit
  first : ∀ byte ∈ text.dropLast, byte ≠ newline
  ended : text.getLast? = some newline ∨ text.length = limit ∨ text = bytes

theorem line_ends (limit : Nat) (bytes : List UInt8) : EndsLine limit bytes (line limit bytes) := by
  induction bytes generalizing limit with
  | nil =>
    cases limit with
    | zero => exact ⟨List.prefix_rfl, le_rfl, List.forall_mem_nil _, .inr (.inr rfl)⟩
    | succ limit => exact ⟨List.prefix_rfl, Nat.zero_le _, List.forall_mem_nil _, .inr (.inr rfl)⟩
  | cons byte rest ih =>
    cases limit with
    | zero => exact ⟨List.nil_prefix, le_rfl, List.forall_mem_nil _, .inr (.inl rfl)⟩
    | succ limit =>
      rw [line]
      by_cases hbyte : byte = newline
      · subst hbyte
        rw [if_pos rfl]
        exact ⟨⟨rest, rfl⟩, Nat.succ_le_succ (Nat.zero_le _), List.forall_mem_nil _, .inl rfl⟩
      · obtain ⟨hfront, hbounded, hfirst, hended⟩ := ih limit
        rw [if_neg hbyte]
        refine ⟨(List.prefix_cons_inj byte).mpr hfront, Nat.succ_le_succ hbounded, ?_, ?_⟩
        · cases hline : line limit rest with
          | nil => exact List.forall_mem_nil _
          | cons other others =>
            rw [hline] at hfirst
            exact List.forall_mem_cons.mpr ⟨hbyte, hfirst⟩
        · obtain hended | hended | hended := hended
          · left
            cases hline : line limit rest with
            | nil => simp [hline] at hended
            | cons other others => rw [List.getLast?_cons_cons, ← hline, hended]
          · exact .inr (.inl (congrArg Nat.succ hended))
          · exact .inr (.inr (congrArg (List.cons byte) hended))

section Lines

variable {limit : Nat} {bytes : List UInt8}

/-- A newline among the first bytes ends the line. -/
theorem line_found {position : Nat} (h : (bytes.take limit).findIdx? (· = newline) = some position)
    (rest : List UInt8) :
    line limit (bytes ++ rest) = bytes.take (position + 1) ∧ position < bytes.length := by
  induction bytes generalizing limit position with
  | nil => simp at h
  | cons byte bytes ih =>
    cases limit with
    | zero => simp at h
    | succ limit =>
      rw [List.take_succ_cons, List.findIdx?_cons] at h
      rw [List.cons_append, line]
      by_cases hbyte : byte = newline
      · rw [if_pos (decide_eq_true hbyte)] at h
        obtain rfl := Option.some.inj h
        rw [if_pos hbyte]
        exact ⟨rfl, Nat.zero_lt_succ _⟩
      · rw [if_neg (by simpa using hbyte)] at h
        obtain ⟨index, hindex, rfl⟩ := Option.map_eq_some_iff.mp h
        obtain ⟨hline, hless⟩ := ih hindex
        rw [if_neg hbyte, hline, List.take_succ_cons]
        exact ⟨rfl, Nat.succ_lt_succ hless⟩

/-- Without a newline among the first bytes, the line is what the limit leaves of them. -/
theorem line_missed (h : (bytes.take limit).findIdx? (· = newline) = none)
    (hlimit : limit ≤ bytes.length) (rest : List UInt8) :
    line limit (bytes ++ rest) = bytes.take limit := by
  induction bytes generalizing limit with
  | nil =>
    obtain rfl := Nat.le_zero.mp hlimit
    rfl
  | cons byte bytes ih =>
    cases limit with
    | zero => rfl
    | succ limit =>
      rw [List.take_succ_cons, List.findIdx?_cons] at h
      have hbyte : ¬ byte = newline := fun hbyte => by simp [hbyte] at h
      rw [if_neg (by simpa using hbyte), Option.map_eq_none_iff] at h
      rw [List.cons_append, line, if_neg hbyte, ih h (Nat.le_of_succ_le_succ hlimit),
        List.take_succ_cons]

/-- All bytes are the line where none is a newline and the limit is not reached. -/
theorem line_ended (h : (bytes.take limit).findIdx? (· = newline) = none)
    (hlimit : bytes.length ≤ limit) : line limit bytes = bytes := by
  induction bytes generalizing limit with
  | nil => cases limit <;> rfl
  | cons byte bytes ih =>
    cases limit with
    | zero => cases hlimit
    | succ limit =>
      rw [List.take_succ_cons, List.findIdx?_cons] at h
      have hbyte : ¬ byte = newline := fun hbyte => by simp [hbyte] at h
      rw [if_neg (by simpa using hbyte), Option.map_eq_none_iff] at h
      rw [line, if_neg hbyte, ih h (Nat.le_of_succ_le_succ hlimit)]

end Lines

/-! ### The reader -/

/-- The socket: what is still to be received, how much every call of `recv` may return at
    most, and what has been asked for and received so far. -/
structure Connection where
  stream : List UInt8
  sizes : Nat → Nat
  log : List (Nat × List UInt8)

/-- `recv` returns some of the bytes that are left, at least one where there are any. -/
def Connection.recv (self : Connection) (size : Nat) : List UInt8 × Connection :=
  let part := self.stream.take (min size (self.sizes self.log.length + 1))
  (part, { self with stream := self.stream.drop part.length, log := self.log ++ [(size, part)] })

/-- A reader, with the readings of its clock one after the other. -/
structure DeadlineInput where
  connection : Connection
  clock : Nat → ℚ
  readings : Nat
  deadline : ℚ
  buffer : List UInt8

namespace DeadlineInput

/-- The reader after its clock has been read. -/
def tick (self : DeadlineInput) : DeadlineInput := { self with readings := self.readings + 1 }

def remaining (self : DeadlineInput) : Except Failure Unit × DeadlineInput :=
  (if self.deadline - self.clock self.readings ≤ 0 then .error .timeout_error
    else .ok (), self.tick)

/-- `_receive`. -/
def receive (self : DeadlineInput) (limit : Nat) : Except Failure (List UInt8) × DeadlineInput :=
  match self.remaining with
  | (.error failure, self) => (.error failure, self)
  | (.ok (), self) =>
    let (data, connection) := self.connection.recv (min limit 8192)
    match { self with connection := connection }.remaining with
    | (.error failure, self) => (.error failure, self)
    | (.ok (), self) => (.ok data, self)

/-- The clock is before the deadline at a reading. -/
def OnTime (reader : DeadlineInput) (reading : Nat) : Prop := reader.clock reading < reader.deadline

theorem remaining_of_onTime {reader : DeadlineInput} (h : reader.OnTime reader.readings) :
    reader.remaining = (.ok (), reader.tick) := by
  rw [remaining, if_neg (not_le.mpr (sub_pos.mpr h))]

theorem remaining_of_late {reader : DeadlineInput} (h : ¬ reader.OnTime reader.readings) :
    reader.remaining = (.error .timeout_error, reader.tick) := by
  rw [remaining, if_pos (sub_nonpos.mpr (not_lt.mp h))]

/-- What is left to be read. -/
def rest (reader : DeadlineInput) : List UInt8 := reader.buffer ++ reader.connection.stream

/-- The reader after a part has been received. -/
def received (reader : DeadlineInput) (limit : Nat) : DeadlineInput :=
  { reader with connection := (reader.connection.recv (min limit 8192)).2, readings :=
    reader.readings + 2 }

def part (reader : DeadlineInput) (limit : Nat) : List UInt8 :=
  (reader.connection.recv (min limit 8192)).1

theorem receive_of_onTime {reader : DeadlineInput} {limit : Nat} (h : reader.OnTime reader.readings)
    (h' : reader.OnTime (reader.readings + 1)) :
    reader.receive limit = (.ok (reader.part limit), reader.received limit) := by
  rw [receive, remaining_of_onTime h]
  dsimp only
  rw [remaining_of_onTime h']
  rfl

theorem receive_of_late {reader : DeadlineInput} {limit : Nat}
    (h : ¬ reader.OnTime reader.readings) :
    reader.receive limit = (.error .timeout_error, reader.tick) := by
  rw [receive, remaining_of_late h]

theorem receive_of_lateness {reader : DeadlineInput} {limit : Nat}
    (h : reader.OnTime reader.readings) (h' : ¬ reader.OnTime (reader.readings + 1)) :
    reader.receive limit = (.error .timeout_error, reader.received limit) := by
  rw [receive, remaining_of_onTime h]
  dsimp only
  rw [remaining_of_late h']
  rfl

theorem part_stream (reader : DeadlineInput) (limit : Nat) :
    reader.part limit ++ (reader.received limit).connection.stream = reader.connection.stream := by
  have htake : ∀ (bytes : List UInt8) (count : Nat),
      bytes.take count ++ bytes.drop (bytes.take count).length = bytes := by
    intro bytes count
    obtain hle | hle := Nat.le_total count bytes.length
    · rw [List.length_take, Nat.min_eq_left hle, List.take_append_drop]
    · rw [List.take_of_length_le hle, List.drop_length, List.append_nil]
  exact htake _ _

theorem part_length_le (reader : DeadlineInput) (limit : Nat) :
    (reader.part limit).length ≤ min limit 8192 :=
  (List.length_take_le _ _).trans (Nat.min_le_left _ _)

/-- Nothing is received at the end of the stream only. -/
theorem part_ended {reader : DeadlineInput} {limit : Nat} (hlimit : 0 < limit)
    (h : reader.part limit = []) :
    reader.connection.stream = [] := by
  obtain hzero | hnil := List.take_eq_nil_iff.mp h
  · omega
  · exact hnil

theorem receive_eq_ok {reader reader' : DeadlineInput} {limit : Nat} {data : List UInt8}
    (h : reader.receive limit = (.ok data, reader')) :
    data = reader.part limit ∧ reader' = reader.received limit := by
  by_cases hfirst : reader.OnTime reader.readings
  · by_cases hsecond : reader.OnTime (reader.readings + 1)
    · rw [receive_of_onTime hfirst hsecond] at h
      obtain ⟨hdata, hreader⟩ := Prod.mk.inj h
      exact ⟨(Except.ok.inj hdata).symm, hreader.symm⟩
    · rw [receive_of_lateness hfirst hsecond] at h
      cases h
  · rw [receive_of_late hfirst] at h
    cases h

/-- What is received leaves the stream shorter. -/
theorem receive_shorter {reader reader' : DeadlineInput} {limit : Nat} {data : List UInt8}
    (h : reader.receive limit = (.ok data, reader')) (hdata : data ≠ []) :
    reader'.connection.stream.length < reader.connection.stream.length := by
  obtain ⟨rfl, rfl⟩ := receive_eq_ok h
  have hpos := List.length_pos_iff.mpr hdata
  rw [← reader.part_stream limit, List.length_append]
  omega

/-- The loop of `readline`. -/
def lines (limit : Nat) (self : DeadlineInput) : Except Failure (List UInt8) × DeadlineInput :=
  match _hclock : self.remaining with
  | (.error failure, self) => (.error failure, self)
  | (.ok (), self) =>
    match (self.buffer.take limit).findIdx? (· = newline) with
    | some position => (.ok (self.buffer.take (position + 1)),
        { self with buffer := self.buffer.drop (position + 1) })
    | none =>
      if self.buffer.length ≥ limit then
        (.ok (self.buffer.take limit), { self with buffer := self.buffer.drop limit })
      else match _hpart : self.receive (limit - self.buffer.length) with
        | (.error failure, self) => (.error failure, self)
        | (.ok data, self) =>
          if _hdata : data = [] then (.ok self.buffer, { self with buffer := [] })
          else lines limit { self with buffer := self.buffer ++ data }
termination_by self.connection.stream.length
decreasing_by
  have hshorter := receive_shorter _hpart _hdata
  obtain ⟨_, rfl⟩ := Prod.mk.inj _hclock
  exact hshorter

def readline (self : DeadlineInput) (limit : Int) : Except Failure (List UInt8) × DeadlineInput :=
  self.lines (if limit < 0 then 4097 else limit.toNat)

/-- The end of `read`. -/
def finish (result : List UInt8) (self : DeadlineInput) :
    Except Failure (List UInt8) × DeadlineInput :=
  match self.remaining with
  | (.error failure, self) => (.error failure, self)
  | (.ok (), self) => (.ok result, self)

/-- The loop of `read`. -/
def parts (size : Nat) (result : List UInt8) (self : DeadlineInput) :
    Except Failure (List UInt8) × DeadlineInput :=
  if result.length < size then
    match _hpart : self.receive (size - result.length) with
    | (.error failure, self) => (.error failure, self)
    | (.ok data, self) => if _hdata : data = [] then finish result self
        else parts size (result ++ data) self
  else finish result self
termination_by self.connection.stream.length
decreasing_by exact receive_shorter _hpart _hdata

def read (self : DeadlineInput) (size : Int) : Except Failure (List UInt8) × DeadlineInput :=
  if size < 0 then (.error .value_error, self)
  else { self with buffer := self.buffer.drop size.toNat }.parts size.toNat
    (self.buffer.take size.toNat)

/-! ### The turns of the loops -/

section Turns

variable {reader reader' : DeadlineInput} {limit size : Nat} {data result : List UInt8}

theorem lines_late (h : ¬ reader.OnTime reader.readings) :
    reader.lines limit = (.error .timeout_error, reader.tick) := by
  rw [lines]
  split
  · next hclock =>
    rw [remaining_of_late h] at hclock
    cases hclock
    rfl
  · next hclock =>
    rw [remaining_of_late h] at hclock
    cases hclock

theorem lines_found {position : Nat} (h : reader.OnTime reader.readings)
    (hfind : (reader.buffer.take limit).findIdx? (· = newline) = some position) :
    reader.lines limit = (.ok (reader.buffer.take (position + 1)),
      { reader.tick with buffer := reader.buffer.drop (position + 1) }) := by
  rw [lines]
  split
  · next hclock =>
    rw [remaining_of_onTime h] at hclock
    cases hclock
  · next hclock =>
    rw [remaining_of_onTime h] at hclock
    obtain ⟨_, rfl⟩ := Prod.mk.inj hclock
    split
    · next hsome =>
      obtain rfl := Option.some.inj (hsome.symm.trans hfind)
      rfl
    · next hnone => cases hnone.symm.trans hfind

theorem lines_missed (h : reader.OnTime reader.readings)
    (hfind : (reader.buffer.take limit).findIdx? (· = newline) = none) :
    reader.lines limit =
      if reader.buffer.length ≥ limit then
        (.ok (reader.buffer.take limit), { reader.tick with buffer := reader.buffer.drop limit })
      else match reader.tick.receive (limit - reader.buffer.length) with
        | (.error failure, self) => (.error failure, self)
        | (.ok data, self) =>
          if data = [] then (.ok self.buffer, { self with buffer := [] })
          else lines limit { self with buffer := self.buffer ++ data } := by
  rw [lines]
  split
  · next hclock =>
    rw [remaining_of_onTime h] at hclock
    cases hclock
  · next hclock =>
    rw [remaining_of_onTime h] at hclock
    obtain ⟨_, rfl⟩ := Prod.mk.inj hclock
    split
    · next hsome => cases hsome.symm.trans hfind
    · split
      · next hfull =>
        have hfull : reader.buffer.length ≥ limit := hfull
        rw [if_pos hfull]
        rfl
      · next hfull =>
        have hfull : ¬ reader.buffer.length ≥ limit := hfull
        rw [if_neg hfull]
        split
        · next hpart =>
          have hpart : reader.tick.receive (limit - reader.buffer.length) = _ := hpart
          rw [hpart]
        · next hpart =>
          have hpart : reader.tick.receive (limit - reader.buffer.length) = _ := hpart
          rw [hpart]
          rfl

theorem parts_short (h : result.length < size) :
    reader.parts size result = match reader.receive (size - result.length) with
      | (.error failure, self) => (.error failure, self)
      | (.ok data, self) =>
        if data = [] then finish result self else parts size (result ++ data) self := by
  rw [parts, if_pos h]
  split
  · next hpart => rw [hpart]
  · next hpart =>
    rw [hpart]
    rfl

theorem parts_full (h : ¬ result.length < size) :
    reader.parts size result = finish result reader := by
  rw [parts, if_neg h]

end Turns

/-! ### What a call does -/

/-- Every request asks for no more than what is left of the room. -/
def Frugal : Nat → List (Nat × List UInt8) → Prop
  | _, [] => True
  | room, (size, part) :: rest => size ≤ room ∧ Frugal (room - part.length) rest

/-- A call with room for some bytes: of all bytes it returns those that are expected where no
    reading of the clock is late, and raises TimeoutError otherwise. -/
structure Serves (room : Nat) (reader : DeadlineInput) (bytes expected : List UInt8)
    (outcome : Except Failure (List UInt8) × DeadlineInput) : Prop where
  deadline : outcome.2.deadline = reader.deadline
  clock : outcome.2.clock = reader.clock
  readings : reader.readings ≤ outcome.2.readings
  log : ∃ requests, outcome.2.connection.log = reader.connection.log ++ requests ∧
    Frugal room requests
  result : outcome.1 = .ok expected ∧ expected ++ outcome.2.rest = bytes ∧
      (∀ reading, reader.readings ≤ reading → reading < outcome.2.readings →
        reader.OnTime reading) ∨
    outcome.1 = .error .timeout_error ∧ ∃ reading, reader.readings ≤ reading ∧
    reading < outcome.2.readings ∧ ¬ reader.OnTime reading

section Calls

variable {reader : DeadlineInput} {room limit size : Nat} {bytes expected buffer : List UInt8}
  {outcome : Except Failure (List UInt8) × DeadlineInput}

theorem serves_late (h : ¬ reader.OnTime reader.readings) :
    Serves room reader bytes expected (.error .timeout_error, reader.tick) :=
  ⟨rfl, rfl, Nat.le_succ _, ⟨[], (List.append_nil _).symm, trivial⟩,
    .inr ⟨rfl, _, le_rfl, Nat.lt_succ_self _, h⟩⟩

/-- What is returned without another look at the clock. -/
theorem serves_done (h : expected ++ (buffer ++ reader.connection.stream) = bytes) :
    Serves room reader bytes expected (.ok expected, { reader with buffer := buffer }) :=
  ⟨rfl, rfl, le_rfl, ⟨[], (List.append_nil _).symm, trivial⟩,
    .inl ⟨rfl, h, fun _ hlow hhigh => absurd hhigh (not_lt.mpr hlow)⟩⟩

/-- A call does not depend on the buffer otherwise than through the bytes that are left. -/
theorem Serves.of_buffer (h : Serves room { reader with buffer := buffer } bytes expected outcome) :
    Serves room reader bytes expected outcome :=
  ⟨h.deadline, h.clock, h.readings, h.log, h.result⟩

/-- A call that goes on after a look at the clock. -/
theorem Serves.after_tick (h : Serves room reader.tick bytes expected outcome)
    (hclock : reader.OnTime reader.readings) :
    Serves room reader bytes expected outcome := by
  obtain ⟨hdeadline, hreadings, hless, hlog, hresult⟩ := h
  refine ⟨hdeadline, hreadings, (Nat.le_succ _).trans hless, hlog, ?_⟩
  obtain ⟨hok, hbytes, hpunctual⟩ | ⟨herror, reading, hlow, hhigh, hlate⟩ := hresult
  · refine .inl ⟨hok, hbytes, fun reading hlow hhigh => ?_⟩
    obtain rfl | hlow := Nat.eq_or_lt_of_le hlow
    · exact hclock
    · exact hpunctual reading hlow hhigh
  · exact .inr ⟨herror, reading, (Nat.le_succ _).trans hlow, hhigh, hlate⟩

/-- A call that goes on after a part has been received. -/
theorem receive_serves (next : List UInt8 → DeadlineInput →
      Except Failure (List UInt8) × DeadlineInput) (hlimit : limit ≤ room)
    (h : Serves (room - (reader.part limit).length) (reader.received limit) bytes expected
      (next (reader.part limit) (reader.received limit))) :
    Serves room reader bytes expected (match reader.receive limit with
      | (.error failure, self) => (.error failure, self)
      | (.ok data, self) => next data self) := by
  have hroom : min limit 8192 ≤ room := (Nat.min_le_left _ _).trans hlimit
  by_cases hfirst : reader.OnTime reader.readings
  · by_cases hsecond : reader.OnTime (reader.readings + 1)
    · rw [receive_of_onTime hfirst hsecond]
      obtain ⟨hdeadline, hreadings, hless, ⟨requests, hlog, hfrugal⟩, hresult⟩ := h
      refine ⟨hdeadline, hreadings, (Nat.le_add_right _ 2).trans hless,
        ⟨(min limit 8192, reader.part limit) :: requests, ?_, hroom, hfrugal⟩, ?_⟩
      · have hreceived : (reader.received limit).connection.log =
            reader.connection.log ++ [(min limit 8192, reader.part limit)] := rfl
        rw [hlog, hreceived, List.append_assoc, List.singleton_append]
      · obtain ⟨hok, hbytes, hpunctual⟩ | ⟨herror, reading, hlow, hhigh, hlate⟩ := hresult
        · refine .inl ⟨hok, hbytes, fun reading hlow hhigh => ?_⟩
          obtain rfl | hlow := Nat.eq_or_lt_of_le hlow
          · exact hfirst
          · obtain rfl | hlow := Nat.eq_or_lt_of_le hlow
            · exact hsecond
            · exact hpunctual reading hlow hhigh
        · exact .inr ⟨herror, reading, (Nat.le_add_right _ 2).trans hlow, hhigh, hlate⟩
    · rw [receive_of_lateness hfirst hsecond]
      exact ⟨rfl, rfl, Nat.le_add_right _ 2,
        ⟨[(min limit 8192, reader.part limit)], rfl, hroom, trivial⟩,
        .inr ⟨rfl, reader.readings + 1, Nat.le_succ _, Nat.lt_succ_self _, hsecond⟩⟩
  · rw [receive_of_late hfirst]
    exact serves_late hfirst

/-- A line is served from what is left, whatever the parts in which it comes. -/
theorem lines_serves (limit : Nat) (reader : DeadlineInput) :
    Serves (limit - reader.buffer.length) reader reader.rest (line limit reader.rest)
      (reader.lines limit) := by
  induction hstream :
    reader.connection.stream.length using Nat.strong_induction_on generalizing reader with
  | _ length ih =>
    by_cases hclock : reader.OnTime reader.readings
    · refine Serves.after_tick ?_ hclock
      cases hfind : (reader.buffer.take limit).findIdx? (· = newline) with
      | some position =>
        obtain ⟨hline, hless⟩ := line_found hfind reader.connection.stream
        rw [lines_found hclock hfind, rest, hline]
        refine serves_done ?_
        rw [← List.append_assoc, List.take_append_drop]
        rfl
      | none =>
        rw [lines_missed hclock hfind]
        by_cases hfull : reader.buffer.length ≥ limit
        · rw [if_pos hfull, rest, line_missed hfind hfull]
          refine serves_done ?_
          rw [← List.append_assoc, List.take_append_drop]
          rfl
        · rw [if_neg hfull]
          have hlimit : 0 < limit - reader.buffer.length := Nat.sub_pos_of_lt (not_le.mp hfull)
          have hstream' := part_stream reader.tick (limit - reader.buffer.length)
          refine receive_serves _ le_rfl ?_
          by_cases hpart : reader.tick.part (limit - reader.buffer.length) = []
          · have hended : reader.connection.stream = [] := part_ended hlimit hpart
            have hrest : reader.rest = reader.buffer := by rw [rest, hended, List.append_nil]
            have hline : line limit reader.rest = reader.buffer := by
              rw [hrest]
              exact line_ended hfind (not_le.mp hfull).le
            rw [if_pos hpart, hline]
            refine serves_done ?_
            rw [hpart] at hstream'
            rw [List.nil_append, rest]
            exact congrArg _ hstream'
          · have hshorter := List.length_pos_iff.mpr hpart
            have hlength := congrArg List.length hstream'
            rw [List.length_append] at hlength
            have hrest : (reader.buffer ++ reader.tick.part (limit - reader.buffer.length)) ++
                (reader.tick.received (limit - reader.buffer.length)).connection.stream =
                  reader.rest := by
              rw [List.append_assoc, hstream']
              rfl
            have hless : (reader.tick.received
                (limit - reader.buffer.length)).connection.stream.length < length := by
              have hsame : reader.tick.connection.stream.length =
                  reader.connection.stream.length := rfl
              omega
            have hnext := ih _ hless { reader.tick.received (limit - reader.buffer.length) with
              buffer := reader.buffer ++ reader.tick.part (limit - reader.buffer.length) } rfl
            rw [rest] at hnext
            dsimp only at hnext
            rw [hrest, List.length_append, ← Nat.sub_sub] at hnext
            rw [if_neg hpart]
            exact hnext.of_buffer
    · rw [lines_late hclock]
      exact serves_late hclock

theorem finish_serves {result : List UInt8} (h : result ++ reader.rest = bytes) :
    Serves room reader bytes result (finish result reader) := by
  by_cases hclock : reader.OnTime reader.readings
  · rw [finish, remaining_of_onTime hclock]
    exact Serves.after_tick (serves_done h) hclock
  · rw [finish, remaining_of_late hclock]
    exact serves_late hclock

/-- A number of bytes is served from what is held and what is left. -/
theorem parts_serves (size : Nat) (reader : DeadlineInput) :
    ∀ (result : List UInt8), result.length ≤ size → (result.length < size → reader.buffer = []) →
      Serves (size - result.length) reader (result ++ reader.rest)
        ((result ++ reader.rest).take size) (reader.parts size result) := by
  induction hstream :
    reader.connection.stream.length using Nat.strong_induction_on generalizing reader with
  | _ length ih =>
    intro result hresult hbuffer
    by_cases hshort : result.length < size
    · have hlimit : 0 < size - result.length := Nat.sub_pos_of_lt hshort
      have hstream' := part_stream reader (size - result.length)
      have hrest : reader.rest = reader.connection.stream := by
        rw [rest, hbuffer hshort, List.nil_append]
      have hreceived : (reader.received (size - result.length)).rest =
          (reader.received (size - result.length)).connection.stream := by
        rw [rest, show (reader.received (size - result.length)).buffer = reader.buffer from rfl,
          hbuffer hshort, List.nil_append]
      rw [parts_short hshort]
      refine receive_serves _ le_rfl ?_
      by_cases hpart : reader.part (size - result.length) = []
      · have hended : reader.connection.stream = [] := part_ended hlimit hpart
        rw [if_pos hpart, hrest, hended, List.append_nil, List.take_of_length_le hresult]
        refine finish_serves ?_
        rw [hpart, List.nil_append, hended] at hstream'
        rw [hreceived, hstream', List.append_nil]
      · have hshorter := List.length_pos_iff.mpr hpart
        have hlength := congrArg List.length hstream'
        rw [List.length_append] at hlength
        have hbound := part_length_le reader (size - result.length)
        have hnext := ih _ (by omega) (reader.received (size - result.length)) rfl
          (result ++ reader.part (size - result.length))
          (by rw [List.length_append]; omega) (fun _ => hbuffer hshort)
        have hsame : (result ++ reader.part (size - result.length)) ++
          (reader.received (size - result.length)).rest =
            result ++ reader.rest := by
          rw [List.append_assoc, hrest, hreceived, hstream']
        rw [hsame, List.length_append, ← Nat.sub_sub] at hnext
        rw [if_neg hpart]
        exact hnext
    · have hfull : result.length = size := le_antisymm hresult (not_lt.mp hshort)
      rw [parts_full hshort, ← hfull, List.take_left']
      · exact finish_serves rfl
      · rfl

theorem readline_serves (reader : DeadlineInput) (limit : Nat) :
    Serves (limit - reader.buffer.length) reader reader.rest (line limit reader.rest)
      (reader.readline limit) := by
  have hlimit : (if (limit : Int) < 0 then 4097 else (limit : Int).toNat) = limit := by
    rw [if_neg (by omega), Int.toNat_natCast]
  rw [readline, hlimit]
  exact lines_serves limit reader

theorem read_serves (reader : DeadlineInput) (size : Nat) :
    Serves (size - reader.buffer.length) reader reader.rest (reader.rest.take size)
      (reader.read size) := by
  have hheld : (reader.buffer.take size).length = min size reader.buffer.length := List.length_take
  have hparts :=
      parts_serves size { reader with buffer := reader.buffer.drop size } (reader.buffer.take size)
    (by omega) (fun hshort => List.drop_of_length_le (by omega))
  have hrest : reader.buffer.take size ++ { reader with buffer := reader.buffer.drop size }.rest =
      reader.rest := by
    rw [rest, ← List.append_assoc, List.take_append_drop]
    rfl
  have hroom : size - (reader.buffer.take size).length = size - reader.buffer.length := by omega
  rw [hrest, hroom] at hparts
  rw [read, if_neg (by omega), Int.toNat_natCast]
  exact hparts.of_buffer

end Calls

end DeadlineInput

/-! ### Sequences of calls -/

/-- A call of a reader, within the bounds that its callers keep. -/
inductive Call where
  | readline (limit : Nat) (positive : 1 ≤ limit)
  | read (size : Nat)

namespace Call

/-- The most bytes that a call may return. -/
def limit : Call → Nat
  | readline limit _ => limit
  | read size => size

def perform : Call → DeadlineInput → Except Failure (List UInt8) × DeadlineInput
  | readline limit _, reader => reader.readline limit
  | read size, reader => reader.read size

/-- What a call returns of the bytes that are left. -/
def Returns : Call → List UInt8 → List UInt8 → Prop
  | readline limit _, bytes, data => EndsLine limit bytes data
  | read size, bytes, data => data = bytes.take size

def expected : Call → List UInt8 → List UInt8
  | readline limit _, bytes => line limit bytes
  | read size, bytes => bytes.take size

theorem returns_expected (call : Call) (bytes : List UInt8) :
    call.Returns bytes (call.expected bytes) := by
  cases call with
  | readline limit positive => exact line_ends limit bytes
  | read size => rfl

theorem expected_prefix (call : Call) (bytes : List UInt8) : call.expected bytes <+: bytes := by
  cases call with
  | readline limit positive => exact (line_ends limit bytes).front
  | read size => exact List.take_prefix _ _

theorem perform_serves (call : Call) (reader : DeadlineInput) :
    DeadlineInput.Serves (call.limit - reader.buffer.length) reader reader.rest
      (call.expected reader.rest) (call.perform reader) := by
  cases call with
  | readline limit positive => exact reader.readline_serves limit
  | read size => exact reader.read_serves size

end Call

/-- What calls return, one after the other, of a plain list of bytes. -/
inductive Plain : List Call → List UInt8 → List (List UInt8) → Prop where
  | nil (bytes : List UInt8) : Plain [] bytes []
  | cons {call : Call} {calls : List Call} {data bytes : List UInt8} {results : List (List UInt8)}
      (head : call.Returns (data ++ bytes) data) (tail : Plain calls bytes results) :
      Plain (call :: calls) (data ++ bytes) (data :: results)

theorem Plain.flatten {calls : List Call} {bytes : List UInt8} {results : List (List UInt8)}
    (h : Plain calls bytes results) :
    results.flatten <+: bytes := by
  induction h with
  | nil bytes => exact List.nil_prefix
  | cons head tail ih =>
    rw [List.flatten_cons]
    exact (List.prefix_append_right_inj _).mpr ih

structure Step where
  before : DeadlineInput
  call : Call
  result : Except Failure (List UInt8)
  after : DeadlineInput

/-- The calls on a reader, one after the other. -/
def DeadlineInput.steps : DeadlineInput → List Call → List Step
  | _, [] => []
  | reader, call :: calls => ⟨reader, call, (call.perform reader).1, (call.perform reader).2⟩ ::
      (call.perform reader).2.steps calls

/-- No request of a call asks for more bytes than the call may still return. -/
def Step.Frugal (step : Step) : Prop :=
  ∃ requests, step.after.connection.log = step.before.connection.log ++ requests ∧
    DeadlineInput.Frugal (step.call.limit - step.before.buffer.length) requests

/-- A call raises TimeoutError exactly where one of its readings of the clock is at or past the
    deadline, and nothing else. -/
def Step.Punctual (clock : Nat → ℚ) (deadline : ℚ) (step : Step) : Prop :=
  ((∃ reading, step.before.readings ≤ reading ∧ reading < step.after.readings ∧
    deadline ≤ clock reading) ↔
      step.result = .error .timeout_error) ∧
    ∀ failure, step.result = .error failure → failure = .timeout_error

/-- A reader of a stream that comes in parts of some sizes. -/
def DeadlineInput.start (stream : List UInt8) (sizes : Nat → Nat) (clock : Nat → ℚ)
    (deadline : ℚ) : DeadlineInput :=
  ⟨⟨stream, sizes, []⟩, clock, 0, deadline, []⟩

section Runs

variable {reader : DeadlineInput} {calls : List Call}

theorem step_punctual (call : Call) (reader : DeadlineInput) :
    Step.Punctual reader.clock reader.deadline
      ⟨reader, call, (call.perform reader).1, (call.perform reader).2⟩ := by
  obtain ⟨hok, _, hpunctual⟩ | ⟨herror, reading, hlow, hhigh, hlate⟩ :=
    (call.perform_serves reader).result
  · constructor
    · refine iff_of_false (fun ⟨reading, hlow, hhigh, hlate⟩ => ?_) (by rw [hok]; nofun)
      exact absurd (hpunctual reading hlow hhigh) (not_lt.mpr hlate)
    · intro failure hfailure
      cases hok.symm.trans hfailure
  · constructor
    · exact iff_of_true ⟨reading, hlow, hhigh, not_lt.mp hlate⟩ herror
    · intro failure hfailure
      exact (Except.error.inj (herror.symm.trans hfailure)).symm

/-- Every call of a sequence asks frugally and keeps to the deadline. -/
theorem steps_bounded (calls : List Call) (reader : DeadlineInput) :
    ∀ step ∈ reader.steps calls, step.Frugal ∧ step.Punctual reader.clock reader.deadline := by
  induction calls generalizing reader with
  | nil => exact List.forall_mem_nil _
  | cons call calls ih =>
    have hserves := call.perform_serves reader
    have hrest := ih (call.perform reader).2
    rw [hserves.clock, hserves.deadline] at hrest
    exact List.forall_mem_cons.mpr ⟨⟨hserves.log, step_punctual call reader⟩, hrest⟩

/-- Before the deadline, the calls return what they return of the plain bytes that are left. -/
theorem steps_plain (calls : List Call) (bytes : List UInt8) :
    ∃ results, Plain calls bytes results ∧ ∀ reader : DeadlineInput, reader.rest = bytes →
      (∀ reading, reader.OnTime reading) →
      (reader.steps calls).map Step.result = results.map .ok := by
  induction calls generalizing bytes with
  | nil => exact ⟨[], .nil bytes, fun _ _ _ => rfl⟩
  | cons call calls ih =>
    obtain ⟨rest, hrest⟩ := call.expected_prefix bytes
    obtain ⟨results, hplain, hresults⟩ := ih rest
    refine ⟨call.expected bytes :: results, ?_, ?_⟩
    · have hreturns := call.returns_expected bytes
      nth_rewrite 1 [← hrest] at hreturns
      have hcons := Plain.cons hreturns hplain
      rw [hrest] at hcons
      exact hcons
    · rintro reader rfl hclock
      have hserves := call.perform_serves reader
      obtain ⟨hok, hbytes, _⟩ | ⟨_, reading, _, _, hlate⟩ := hserves.result
      · have hleft : (call.perform reader).2.rest = rest :=
          List.append_cancel_left (hbytes.trans hrest.symm)
        have honTime : ∀ reading, (call.perform reader).2.OnTime reading := by
          intro reading
          rw [DeadlineInput.OnTime, hserves.clock, hserves.deadline]
          exact hclock reading
        rw [DeadlineInput.steps, List.map_cons, List.map_cons, hok, hresults _ hleft honTime]
      · exact absurd (hclock reading) hlate

/-- Whatever the parts in which a stream comes, calls before the deadline return what they return
    of the plain stream; always they ask for no more than they may return, and raise TimeoutError
    where the clock is late. -/
theorem reader_plain (stream : List UInt8) (calls : List Call) :
    (∃ results, Plain calls stream results ∧ results.flatten <+: stream ∧
      ∀ sizes clock deadline, (∀ reading, clock reading < deadline) →
        ((DeadlineInput.start stream sizes clock deadline).steps calls).map Step.result =
          results.map .ok) ∧
      ∀ sizes clock deadline,
        ∀ step ∈ (DeadlineInput.start stream sizes clock deadline).steps calls,
        step.Frugal ∧ step.Punctual clock deadline := by
  obtain ⟨results, hplain, hresults⟩ := steps_plain calls stream
  refine ⟨⟨results, hplain, hplain.flatten, fun sizes clock deadline hclock => ?_⟩,
    fun sizes clock deadline => ?_⟩
  · exact hresults (.start stream sizes clock deadline) rfl hclock
  · exact steps_bounded calls (.start stream sizes clock deadline)

end Runs

end http_io
