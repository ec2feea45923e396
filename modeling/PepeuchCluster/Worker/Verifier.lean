import PepeuchCluster.Worker.FailClosed
import PepeuchCluster.Worker.Frames

namespace pepeuch_worker

open control_plane (canonical encode encode_canonical_length)

/-- The refusal of a request by the verifier. -/
def refused : Failure := Problem "verifier_request_refused"

/-- The `receive` of `receive_authenticated_request`. -/
def receive_authenticated (deadline : ℚ) (size : Nat) (credentials : Option Credentials)
    (result : List UInt8) :
    List Arrival → Except Failure (List UInt8 × Option Credentials × List Arrival)
  | [] => if result.length < size then .error .os_error else .ok (result, credentials, [])
  | arrival :: rest =>
    if result.length < size then do
      Except.require (arrival.now < deadline) refused
      let data ← returned arrival.part
      let (found, unexpected) ← credentials_of arrival.ancillary
      match found with
      | [value] =>
        Except.require (data ≠ [] ∧ arrival.truncated = false ∧ unexpected = false ∧
          ∀ other ∈ credentials, other = value) refused
        receive_authenticated deadline size (some value)
          (result ++ data.take (size - result.length)) rest
      | _ => .error refused
    else .ok (result, credentials, arrival :: rest)

def receive_authenticated_request [Codecs] (deadline : ℚ) (arrivals : List Arrival) :
    Except Failure (Json × Option Credentials) := do
  let (header, credentials, arrivals) ← receive_authenticated deadline 4 none [] arrivals
  Except.require (0 < big_endian header ∧ big_endian header ≤ MAX_FRAME) refused
  let (body, credentials, _) ←
    receive_authenticated deadline (big_endian header) credentials [] arrivals
  let value ← decode_bytes body
  return (value, credentials)

/-! ### Both loops take the same parts -/

section Loops

variable {P Q : Credentials → Prop} {deadline : ℚ} {size : Nat} {writer : Option Credentials}
  {parts : List UInt8}
  {arrivals : List Arrival} {out : List UInt8 × Option Credentials × List Arrival}

theorem Takes.weaken (h : Takes P size writer parts arrivals out)
    (himp : ∀ arrival ∈ arrivals, ∀ value, Carries arrival value → P value → Q value) :
    Takes Q size writer parts arrivals out := by
  induction h with
  | full hfull => exact .full hfull
  | more hless hpart hne hcarries hvalue hsame hrest ih =>
    obtain ⟨harrival, hothers⟩ := List.forall_mem_cons.mp himp
    exact .more hless hpart hne hcarries (harrival _ hcarries hvalue) hsame (ih hothers)

/-- The loop of the verifier takes parts of any writer. -/
theorem authenticated_takes
    (h : receive_authenticated deadline size writer parts arrivals = .ok out) :
    Takes (fun _ => True) size writer parts arrivals out := by
  induction arrivals generalizing writer parts with
  | nil =>
    rw [receive_authenticated] at h
    split at h
    · cases h
    · next hfull =>
      obtain rfl := Except.ok.inj h
      exact .full hfull
  | cons arrival arrivals ih =>
    rw [receive_authenticated] at h
    split at h
    · next hless =>
      simp only [Except.bind_eq_ok, Except.require_eq_ok, exists_const, returned_eq_ok] at h
      obtain ⟨_, data, hdata, ⟨found, unexpected⟩, hfound, h⟩ := h
      dsimp only at h
      split at h
      · simp only [Except.bind_eq_ok, Except.require_eq_ok, exists_const] at h
        obtain ⟨⟨hne, hwhole, rfl, hsame⟩, h⟩ := h
        exact .more hless hdata hne ⟨credentials_alone hfound, hwhole⟩ trivial hsame (ih h)
      · cases h
    · next hfull =>
      obtain rfl := Except.ok.inj h
      exact .full hfull

/-- Before its deadline the loop of `transfer` returns what it takes. -/
theorem Takes.receive (h : Takes Credentials.Root size writer parts arrivals out)
    (hnow : ∀ arrival ∈ arrivals, arrival.now < deadline) :
    receive deadline size writer parts arrivals = .ok out := by
  induction h with
  | @full writer parts arrivals hfull => cases arrivals <;> exact if_neg hfull
  | @more writer parts part arrival arrivals value out hless hpart hne hcarries hvalue
      hsame hrest ih =>
    obtain ⟨harrival, hothers⟩ := List.forall_mem_cons.mp hnow
    have honTime : Except.require (arrival.now < deadline) unverified = .ok () :=
      Except.require_eq_ok.mpr harrival
    have hnonempty : Except.require (part ≠ []) unverified = .ok () := Except.require_eq_ok.mpr hne
    rw [pepeuch_worker.receive, if_pos hless, honTime, Except.ok_bind,
      returned_eq_ok.mpr hpart, Except.ok_bind, writer_of_carries hcarries hvalue hsame,
        Except.ok_bind, hnonempty, Except.ok_bind]
    exact ih hothers

/-- And so does the loop of the verifier. -/
theorem Takes.authenticated (h : Takes P size writer parts arrivals out)
    (hnow : ∀ arrival ∈ arrivals, arrival.now < deadline) :
    receive_authenticated deadline size writer parts arrivals = .ok out := by
  induction h with
  | @full writer parts arrivals hfull => cases arrivals <;> exact if_neg hfull
  | @more writer parts part arrival arrivals value out hless hpart hne hcarries hvalue
      hsame hrest ih =>
    obtain ⟨harrival, hothers⟩ := List.forall_mem_cons.mp hnow
    have honTime : Except.require (arrival.now < deadline) refused = .ok () :=
      Except.require_eq_ok.mpr harrival
    have hclean : Except.require (part ≠ [] ∧ arrival.truncated = false ∧ false = false ∧
        ∀ other ∈ writer, other = value) refused = .ok () :=
      Except.require_eq_ok.mpr ⟨hne, hcarries.whole, rfl, hsame⟩
    rw [receive_authenticated, if_pos hless, honTime, Except.ok_bind, returned_eq_ok.mpr hpart,
      Except.ok_bind, hcarries.alone, credentials_of_alone, Except.ok_bind]
    dsimp only
    rw [hclean, Except.ok_bind]
    exact ih hothers

/-- A loop takes what fills the parts that it asks for. -/
theorem Fills.takes {value : Credentials} {missing : Nat} {used : List Arrival} {bytes : List UInt8}
    (h : Fills value missing used bytes) (hvalue : P value) (rest : List Arrival) :
    ∀ {writer : Option Credentials} {parts : List UInt8}, (∀ other ∈ writer, other = value) →
      (used = [] → writer = some value) →
        Takes P (parts.length + missing) writer parts (used ++ rest)
          (parts ++ bytes, some value, rest) := by
  induction h with
  | full =>
    intro writer parts _ hwriter
    rw [hwriter rfl, List.append_nil]
    exact .full (by simp)
  | @more missing arrival part bytes arrivals hsize hpart hne hcarries hrest ih =>
    intro writer parts hsame _
    have hnext := @ih (some value) (parts ++ part.take missing)
      (fun _ hother => (Option.some.inj hother).symm) fun _ => rfl
    have hlength : (parts ++ part.take missing).length + (missing - part.length) =
        parts.length + missing := by
      rw [List.length_append, List.length_take]
      omega
    rw [hlength, List.append_assoc] at hnext
    refine .more (by omega) hpart hne hcarries hvalue hsame ?_
    rwa [Nat.add_sub_cancel_left]

/-- What is left after a loop is a part of what came. -/
theorem Takes.left (h : Takes P size writer parts arrivals out) : out.2.2 <:+ arrivals := by
  induction h with
  | full hfull => exact List.suffix_rfl
  | more _ _ _ _ _ _ _ ih => exact ih.trans (List.suffix_cons _ _)

end Loops

/-- What two loops take of a frame, one for the header and one for the body. -/
def TakesFrame [Codecs] (P : Credentials → Prop) (arrivals : List Arrival) (reply : Json)
    (writer : Option Credentials) : Prop :=
  ∃ header first middle body rest, Takes P 4 none [] arrivals (header, first, middle) ∧
    (0 < big_endian header ∧ big_endian header ≤ MAX_FRAME) ∧
    Takes P (big_endian header) first [] middle (body, writer, rest) ∧
      decode_bytes body = .ok reply

section Frames

variable [Codecs] {P Q : Credentials → Prop} {deadline : ℚ} {arrivals : List Arrival} {reply : Json}
  {writer : Option Credentials}

theorem TakesFrame.framed (h : TakesFrame P arrivals reply writer) :
    ∃ value, writer = some value ∧ Framed P arrivals reply value := by
  obtain ⟨header, first, middle, body, rest, hheader, hbounds, hbody, hreply⟩ := h
  exact framed_of_takes hheader hbounds hbody hreply

theorem Framed.takesFrame {value : Credentials} (h : Framed P arrivals reply value) :
    TakesFrame P arrivals reply (some value) := by
  obtain ⟨hvalue, head, tail, rest, header, body, rfl, hheader, hbounds, hbody, hreply⟩ := h
  have hne : head ≠ [] := by
    rintro rfl
    cases hheader
  have hfirst := @Fills.takes P value 4 head header hheader hvalue (tail ++ rest) none [] nofun
    fun hnil => absurd hnil hne
  have hsecond := @Fills.takes P value _ tail body hbody hvalue rest (some value) []
    (fun _ hother => (Option.some.inj hother).symm) fun _ => rfl
  rw [List.nil_append, List.length_nil, Nat.zero_add] at hfirst hsecond
  exact ⟨header, some value, tail ++ rest, body, rest, hfirst, hbounds, hsecond, hreply⟩

theorem TakesFrame.weaken (h : TakesFrame P arrivals reply writer)
    (himp : ∀ arrival ∈ arrivals, ∀ value, Carries arrival value → P value → Q value) :
    TakesFrame Q arrivals reply writer := by
  obtain ⟨header, first, middle, body, rest, hheader, hbounds, hbody, hreply⟩ := h
  have hmiddle : middle <:+ arrivals := hheader.left
  exact ⟨header, first, middle, body, rest, hheader.weaken himp, hbounds,
    hbody.weaken fun arrival harrival => himp arrival (hmiddle.subset harrival), hreply⟩

theorem receive_frame_iff (hnow : ∀ arrival ∈ arrivals, arrival.now < deadline) :
    receive_frame deadline arrivals = .ok (reply, writer) ↔
      TakesFrame Credentials.Root arrivals reply writer := by
  constructor
  · intro h
    simp only [receive_frame, Except.bind_eq_ok, Except.require_eq_ok, Except.pure_eq_ok,
      exists_const, Prod.exists, Prod.mk.injEq] at h
    obtain ⟨header, first, middle, hheader, hbounds, body, last, rest, hbody, _,
      hreply, rfl, rfl⟩ := h
    exact ⟨header, first, middle, body, rest, receive_takes hheader, hbounds,
      receive_takes hbody, hreply⟩
  · rintro ⟨header, first, middle, body, rest, hheader, hbounds, hbody, hreply⟩
    have hmiddle : middle <:+ arrivals := hheader.left
    have hlater := hbody.receive fun arrival harrival => hnow arrival (hmiddle.subset harrival)
    simp only [receive_frame, Except.bind_eq_ok, Except.require_eq_ok, Except.pure_eq_ok,
      exists_const, Prod.exists, Prod.mk.injEq]
    exact ⟨header, first, middle, hheader.receive hnow, hbounds, body, writer, rest, hlater, reply,
      hreply, rfl, rfl⟩

theorem authenticated_request_takes
    (h : receive_authenticated_request deadline arrivals = .ok (reply, writer)) :
    TakesFrame (fun _ => True) arrivals reply writer := by
  simp only [receive_authenticated_request, Except.bind_eq_ok, Except.require_eq_ok,
    Except.pure_eq_ok, exists_const, Prod.exists, Prod.mk.injEq] at h
  obtain ⟨header, first, middle, hheader, hbounds, body, last, rest, hbody, _, hreply, rfl, rfl⟩ :=
    h
  exact ⟨header, first, middle, body, rest, authenticated_takes hheader, hbounds,
    authenticated_takes hbody, hreply⟩

theorem TakesFrame.authenticated_request (h : TakesFrame P arrivals reply writer)
    (hnow : ∀ arrival ∈ arrivals, arrival.now < deadline) :
    receive_authenticated_request deadline arrivals = .ok (reply, writer) := by
  obtain ⟨header, first, middle, body, rest, hheader, hbounds, hbody, hreply⟩ := h
  have hmiddle : middle <:+ arrivals := hheader.left
  have hlater := hbody.authenticated fun arrival harrival => hnow arrival (hmiddle.subset harrival)
  simp only [receive_authenticated_request, Except.bind_eq_ok, Except.require_eq_ok,
    Except.pure_eq_ok, exists_const, Prod.exists, Prod.mk.injEq]
  exact ⟨header, first, middle, hheader.authenticated hnow, hbounds, body, writer, rest, hlater,
    reply, hreply, rfl, rfl⟩

end Frames

/-! ### Streams that come in chunks -/

/-- The chunks carry the bytes, each with the credentials of the same writer. -/
inductive Sends (writer : Credentials) : List Arrival → List UInt8 → Prop where
  | nil : Sends writer [] []
  | cons {arrival : Arrival} {chunk bytes : List UInt8} {arrivals : List Arrival}
      (hpart : arrival.part = .ok chunk)
      (hne : chunk ≠ []) (hcarries : Carries arrival writer) (hrest : Sends writer arrivals bytes) :
      Sends writer (arrival :: arrivals) (chunk ++ bytes)

/-- A chunk that is longer than what is asked for comes in two parts. -/
def divide : Nat → List Arrival → List Arrival
  | _, [] => []
  | count, arrival :: arrivals =>
    match arrival.part with
    | .ok chunk =>
      if chunk.length ≤ count then arrival :: divide (count - chunk.length) arrivals
      else if count = 0 then arrival :: arrivals
      else { arrival with part := .ok (chunk.take count) } ::
        { arrival with part := .ok (chunk.drop count) } :: arrivals
    | .error _ => arrival :: arrivals

section Chunks

variable {P : Credentials → Prop} {value : Credentials} {writer : Option Credentials}
  {chunks arrivals : List Arrival}
  {bytes front back : List UInt8} {deadline : ℚ}

theorem divide_onTime {count : Nat} (h : ∀ chunk ∈ chunks, chunk.now < deadline) :
    ∀ arrival ∈ divide count chunks, arrival.now < deadline := by
  induction chunks generalizing count with
  | nil => exact List.forall_mem_nil _
  | cons arrival arrivals ih =>
    obtain ⟨harrival, hothers⟩ := List.forall_mem_cons.mp h
    rw [divide]
    split
    · split
      · exact List.forall_mem_cons.mpr ⟨harrival, ih hothers⟩
      · split
        · exact h
        · exact List.forall_mem_cons.mpr ⟨harrival, List.forall_mem_cons.mpr ⟨harrival, hothers⟩⟩
    · exact h

/-- The parts of a divided stream carry its front and its back. -/
theorem Sends.divide (h : Sends value chunks (front ++ back)) :
    ∃ first last, divide front.length chunks = first ++ last ∧ Sends value first front ∧
      Sends value last back := by
  generalize hbytes : front ++ back = bytes at h
  induction h generalizing front with
  | nil =>
    obtain ⟨rfl, rfl⟩ := List.append_eq_nil_iff.mp hbytes
    exact ⟨[], [], rfl, .nil, .nil⟩
  | @cons arrival chunk bytes arrivals hpart hne hcarries hrest ih =>
    rw [pepeuch_worker.divide, hpart]
    dsimp only
    by_cases hshort : chunk.length ≤ front.length
    · obtain ⟨left, rfl⟩ : ∃ left, front = chunk ++ left := by
        have hprefix : chunk <+: front :=
          List.prefix_of_prefix_length_le ⟨bytes, hbytes.symm⟩ (List.prefix_append _ _) hshort
        obtain ⟨left, hleft⟩ := hprefix
        exact ⟨left, hleft.symm⟩
      rw [List.append_assoc] at hbytes
      obtain ⟨first, last, hdivide, hfirst, hlast⟩ := ih (List.append_cancel_left hbytes)
      rw [if_pos hshort, List.length_append, Nat.add_sub_cancel_left, hdivide]
      exact ⟨arrival :: first, last, rfl, .cons hpart hne hcarries hfirst, hlast⟩
    · rw [if_neg hshort]
      have hall : Sends value (arrival :: arrivals) (chunk ++ bytes) :=
        .cons hpart hne hcarries hrest
      by_cases hzero : front.length = 0
      · obtain rfl := List.length_eq_zero_iff.mp hzero
        rw [if_pos hzero]
        exact ⟨[], arrival :: arrivals, rfl, .nil, by rwa [← hbytes, List.nil_append] at hall⟩
      · obtain ⟨right, rfl⟩ : ∃ right, chunk = front ++ right := by
          have hprefix : front <+: chunk :=
            List.prefix_of_prefix_length_le ⟨back, hbytes⟩ (List.prefix_append _ _) (by omega)
          obtain ⟨right, hright⟩ := hprefix
          exact ⟨right, hright.symm⟩
        rw [List.append_assoc] at hbytes
        obtain rfl := List.append_cancel_left hbytes
        have hright : right ≠ [] := by
          rintro rfl
          simp at hshort
        rw [if_neg hzero, List.take_left', List.drop_left']
        · have hfirst : Sends value [{ arrival with part := .ok front }] (front ++ []) :=
            .cons rfl (fun hnil => hzero (by rw [hnil]; rfl)) ⟨hcarries.alone, hcarries.whole⟩ .nil
          rw [List.append_nil] at hfirst
          have hlast : Sends value ({ arrival with part := .ok right } :: arrivals)
              (right ++ bytes) :=
            .cons rfl hright ⟨hcarries.alone, hcarries.whole⟩ hrest
          exact ⟨_, _, rfl, hfirst, hlast⟩
        · rfl
        · rfl

/-- The chunks fill exactly what they carry. -/
theorem Sends.fills (h : Sends value chunks bytes) : Fills value bytes.length chunks bytes := by
  induction h with
  | nil => exact .full
  | @cons arrival chunk bytes arrivals hpart hne hcarries hrest ih =>
    have hpos := List.length_pos_iff.mpr hne
    have htake : chunk.take (chunk ++ bytes).length = chunk := by
      rw [List.length_append]
      exact List.take_of_length_le (Nat.le_add_right _ _)
    have hleft : Fills value ((chunk ++ bytes).length - chunk.length) arrivals bytes := by
      rwa [List.length_append, Nat.add_sub_cancel_left]
    have hfills := Fills.more (by rw [List.length_append]; omega) hpart hne hcarries hleft
    rwa [htake] at hfills

/-- Two loops take the header and the body that are sent in any chunks. -/
theorem Sends.takes_parts (h : Sends value chunks (pack bytes.length ++ bytes)) (hvalue : P value)
    (hlength : bytes.length ≤ MAX_FRAME) :
    big_endian (pack bytes.length) = bytes.length ∧
      ∃ last,
        Takes P 4 none [] (pepeuch_worker.divide 4 chunks) (pack bytes.length, some value, last) ∧
        Takes P bytes.length (some value) [] last (bytes, some value, []) ∧
        last <:+ pepeuch_worker.divide 4 chunks := by
  obtain ⟨first, last, hdivide, hfirst, hlast⟩ := h.divide
  have hfour : (pack bytes.length).length = 4 := rfl
  have hne : first ≠ [] := by
    rintro rfl
    cases hfirst
  have hheader := @Fills.takes P value _ first _ hfirst.fills hvalue last none [] nofun fun hnil =>
    absurd hnil hne
  have hbody := @Fills.takes P value _ last _ hlast.fills hvalue [] (some value) []
    (fun _ hother => (Option.some.inj hother).symm) fun _ => rfl
  rw [List.nil_append, List.length_nil, Nat.zero_add, hfour, ← hdivide, hfour] at hheader
  rw [List.nil_append, List.length_nil, Nat.zero_add, List.append_nil] at hbody
  exact ⟨big_endian_pack (lt_of_le_of_lt hlength (by decide)), last, hheader, hbody, hheader.left⟩

theorem Sends.takesFrame [Codecs] {reply : Json}
    (h : Sends value chunks (pack bytes.length ++ bytes)) (hvalue : P value)
    (hbounds : 0 < bytes.length ∧ bytes.length ≤ MAX_FRAME)
    (hreply : decode_bytes bytes = .ok reply) :
    TakesFrame P (pepeuch_worker.divide 4 chunks) reply (some value) := by
  obtain ⟨hsize, last, hheader, hbody, _⟩ := h.takes_parts hvalue hbounds.2
  exact ⟨pack bytes.length, some value, last, bytes, [], hheader, hsize.symm ▸ hbounds,
    hsize.symm ▸ hbody, hreply⟩

/-- What the decoder refuses of a frame is refused by both loops. -/
theorem Sends.refused [Codecs] {failure : Failure}
    (h : Sends value chunks (pack bytes.length ++ bytes)) (hroot : value.Root)
    (hbounds : 0 < bytes.length ∧ bytes.length ≤ MAX_FRAME)
    (hnow : ∀ chunk ∈ chunks, chunk.now < deadline) (hreply : decode_bytes bytes = .error failure) :
    receive_frame deadline (pepeuch_worker.divide 4 chunks) = .error failure ∧
      receive_authenticated_request deadline (pepeuch_worker.divide 4 chunks) = .error failure := by
  obtain ⟨hsize, last, hheader, hbody, hlast⟩ := h.takes_parts hroot hbounds.2
  have hdivided : ∀ arrival ∈ pepeuch_worker.divide 4 chunks, arrival.now < deadline :=
    divide_onTime hnow
  have hlater : ∀ arrival ∈ last, arrival.now < deadline := fun arrival harrival =>
    hdivided arrival (hlast.subset harrival)
  have hdemand : ∀ failure : Failure,
      Except.require (0 < bytes.length ∧ bytes.length ≤ MAX_FRAME) failure = .ok () :=
      fun _ => Except.require_eq_ok.mpr hbounds
  constructor
  · rw [receive_frame, hheader.receive hdivided, Except.ok_bind]
    dsimp only
    rw [hsize, hdemand, Except.ok_bind, hbody.receive hlater, Except.ok_bind, hreply]
    rfl
  · rw [receive_authenticated_request, hheader.authenticated hdivided, Except.ok_bind]
    dsimp only
    rw [hsize, hdemand, Except.ok_bind, hbody.authenticated hlater, Except.ok_bind, hreply]
    rfl

end Chunks

/-- The canonical text of a value is not empty. -/
theorem encode_canonical_pos (value : Json) : 0 < (encode (canonical value)).length := by
  obtain ⟨c, tail, hrender, _⟩ := Json.render_head value
  rw [encode_canonical_length, hrender, Json.utf8_length_cons]
  have hsize := c.utf8Size_pos
  omega

/-- A value that was written and that the decoder follows is decoded. -/
theorem written_decoded [Codecs] {python : Interpreter} {value : Json} {bytes : List UInt8}
    (hvalue : value.WellFormed) (hwritten : python.written value = .ok bytes)
    (hdepth : value.depth ≤ Codecs.decode_depth) :
    bytes = pack (encode (canonical value)).length ++ encode (canonical value) ∧
      (encode (canonical value)).length ≤ MAX_FRAME ∧
      decode_bytes (encode (canonical value)) = .ok value := by
  simp only [Interpreter.written, Except.bind_eq_ok, Except.require_eq_ok, Except.pure_eq_ok,
    exists_const] at hwritten
  obtain ⟨_, htraverse, hlength, rfl⟩ := hwritten
  obtain ⟨hprintable, _⟩ := (Json.traverse_eq_ok value).mp htraverse
  have hdecoded : decoded value = .ok () := by
    rw [decoded, (Json.traverse_eq_ok value).mpr ⟨hprintable, hdepth⟩]
    rfl
  exact ⟨rfl, hlength, decode_encode hvalue hdecoded⟩

/-- The channel. A value that is written and that the decoder follows is received as it is, with
    the credentials of its chunks, whatever the chunks; both loops take only frames of one writer,
    and before the deadline they take every frame; and where all writers are root they take the
    same ones. -/
theorem frames_agree [Codecs] :
    (∀ (python : Interpreter) (value : Json) (bytes : List UInt8), value.WellFormed →
      python.written value = .ok bytes → value.depth ≤ Codecs.decode_depth →
        ∀ deadline writer chunks, Sends writer chunks bytes →
        (∀ chunk ∈ chunks, chunk.now < deadline) →
          (writer.Root → receive_frame deadline (divide 4 chunks) = .ok (value, some writer)) ∧
            receive_authenticated_request deadline (divide 4 chunks) = .ok (value, some writer)) ∧
      (∀ deadline arrivals,
        (∀ reply writer,
          (receive_frame deadline arrivals = .ok (reply, writer) →
            ∃ value, writer = some value ∧ Framed Credentials.Root arrivals reply value) ∧
          (receive_authenticated_request deadline arrivals = .ok (reply, writer) →
            ∃ value, writer = some value ∧ Framed (fun _ => True) arrivals reply value)) ∧
        ((∀ arrival ∈ arrivals, arrival.now < deadline) → ∀ reply value,
          (Framed Credentials.Root arrivals reply value →
            receive_frame deadline arrivals = .ok (reply, some value)) ∧
          (Framed (fun _ => True) arrivals reply value →
            receive_authenticated_request deadline arrivals = .ok (reply, some value)))) ∧
        ∀ deadline deadline' arrivals,
          (∀ arrival ∈ arrivals, arrival.now < deadline ∧ arrival.now < deadline') →
            (∀ arrival ∈ arrivals, ∀ value, .credentials value ∈ arrival.ancillary → value.Root) →
              ∀ result, receive_frame deadline arrivals = .ok result ↔
                receive_authenticated_request deadline' arrivals = .ok result := by
  refine ⟨?_, ?_, ?_⟩
  · intro python value bytes hvalue hwritten hdepth deadline writer chunks hsends hnow
    obtain ⟨rfl, hlength, hdecode⟩ := written_decoded hvalue hwritten hdepth
    have hbounds := And.intro (encode_canonical_pos value) hlength
    refine ⟨fun hroot => ?_, ?_⟩
    · exact (receive_frame_iff (divide_onTime hnow)).mpr (hsends.takesFrame hroot hbounds hdecode)
    · have htakes : TakesFrame (fun _ => True) (divide 4 chunks) value (some writer) :=
        hsends.takesFrame trivial hbounds hdecode
      exact htakes.authenticated_request (divide_onTime hnow)
  · intro deadline arrivals
    refine ⟨fun reply writer =>
      ⟨receive_frame_ok, fun h => (authenticated_request_takes h).framed⟩, ?_⟩
    intro hnow reply value
    refine ⟨fun h => (receive_frame_iff hnow).mpr h.takesFrame, fun h => ?_⟩
    exact h.takesFrame.authenticated_request hnow
  · intro deadline deadline' arrivals hnow hroot result
    obtain ⟨reply, writer⟩ := result
    rw [receive_frame_iff fun arrival harrival => (hnow arrival harrival).1]
    constructor
    · exact fun h => h.authenticated_request fun arrival harrival => (hnow arrival harrival).2
    · intro h
      refine (authenticated_request_takes h).weaken fun arrival harrival value hcarries _ =>
        hroot arrival harrival value ?_
      rw [hcarries.alone]
      exact List.mem_singleton_self _

/-! ### Values that the decoder does not follow -/

/-- Lists one inside the other. -/
def nested : Nat → Json
  | 0 => .arr []
  | n + 1 => .arr [nested n]

theorem nested_depth (n : Nat) : (nested n).depth = n + 1 := by
  induction n with
  | zero => rfl
  | succ n ih =>
    have hitems : Json.depthItems [nested n] = max (nested n).depth 0 := rfl
    rw [nested, Json.depth, hitems, ih, Nat.max_zero]

theorem nested_wellFormed (n : Nat) : (nested n).WellFormed := by
  induction n with
  | zero => trivial
  | succ n ih => exact ⟨ih, trivial⟩

theorem nested_printable (n : Nat) : (nested n).Printable := by
  induction n with
  | zero => trivial
  | succ n ih => exact ⟨ih, trivial⟩

theorem nested_length (n : Nat) : (encode (canonical (nested n))).length = 2 * n + 2 := by
  have hbrackets : ('[' : Char).utf8Size = 1 ∧ Json.utf8_length [']'] = 1 := ⟨rfl, rfl⟩
  rw [encode_canonical_length]
  induction n with
  | zero => rfl
  | succ n ih =>
    have hitems : Json.joinItems (Json.renderItems [nested n]) = Json.render (nested n) := rfl
    rw [nested, Json.render, Json.utf8_length_append, Json.utf8_length_cons, hitems, ih,
      hbrackets.1, hbrackets.2]
    omega

/-- A sender whose encoder follows 2000 lists one inside the other. -/
def deep_sender : Interpreter := { cpython with encode_depth := 2000, copy_le_encode := by decide }

/-- A receiver whose decoder follows 990 values one inside the other. -/
abbrev shallow_decoder : Codecs := ⟨fun _ => none, 990⟩

def root_writer : Credentials := ⟨12, 0, 0⟩

/-- A frame in one chunk. -/
def nested_chunk : Arrival :=
  ⟨1, .ok (pack (encode (canonical (nested 1000))).length ++ encode (canonical (nested 1000))),
    [.credentials root_writer], false⟩

theorem nested_written : deep_sender.written (nested 1000) =
    .ok (pack (encode (canonical (nested 1000))).length ++ encode (canonical (nested 1000))) := by
  have htraverse : Json.traverse Failure.recursion_error .value_error deep_sender.encode_depth
      (nested 1000) = .ok () :=
    (Json.traverse_eq_ok _).mpr ⟨nested_printable 1000, by rw [nested_depth]; decide⟩
  have hlength :
      Except.require ((encode (canonical (nested 1000))).length ≤ MAX_FRAME) unverified = .ok () :=
    Except.require_eq_ok.mpr (by rw [nested_length]; decide)
  rw [Interpreter.written, htraverse, Except.ok_bind, hlength]
  rfl

theorem nested_sends : Sends root_writer [nested_chunk]
    (pack (encode (canonical (nested 1000))).length ++ encode (canonical (nested 1000))) := by
  have hcarries : Carries nested_chunk root_writer := ⟨rfl, rfl⟩
  have hpack : ∀ size, pack size ≠ [] := fun _ => List.cons_ne_nil _ _
  have hne := List.append_ne_nil_of_left_ne_nil (hpack (encode (canonical (nested 1000))).length)
    (encode (canonical (nested 1000)))
  have hsends : Sends root_writer [nested_chunk]
      ((pack (encode (canonical (nested 1000))).length ++ encode (canonical (nested 1000))) ++
        []) := .cons rfl hne hcarries .nil
  rwa [List.append_nil] at hsends

/-- A value that is too deep is refused like any other text. -/
theorem decode_deep [Codecs] {value : Json} (h : value.WellFormed)
    (hdepth : Codecs.decode_depth < value.depth) :
    decode_bytes (encode (canonical value)) = .error (Problem "invalid_json") := by
  have hdecoded : decoded value = .error (Problem "invalid_json") := by
    cases htraverse : Json.traverse () () Codecs.decode_depth value with
    | ok _ =>
      obtain ⟨_, hshallow⟩ := (Json.traverse_eq_ok value).mp htraverse
      exact absurd hdepth (not_lt.mpr hshallow)
    | error _ =>
      rw [decoded, htraverse]
      rfl
  rw [decode_text h, hdecoded]
  rfl

theorem nested_decode : @decode_bytes shallow_decoder (encode (canonical (nested 1000))) =
    .error (Problem "invalid_json") :=
  @decode_deep shallow_decoder _ (nested_wellFormed 1000) (by rw [nested_depth]; decide)

/-- A value that is written and that neither loop returns. -/
theorem nested_not_received : letI := shallow_decoder
    (nested 1000).WellFormed ∧ ∃ bytes, deep_sender.written (nested 1000) = .ok bytes ∧
      Sends root_writer [nested_chunk] bytes ∧
      receive_frame 2 (divide 4 [nested_chunk]) = .error (Problem "invalid_json") ∧
        receive_authenticated_request 2 (divide 4 [nested_chunk]) =
          .error (Problem "invalid_json") := by
  have hbounds : 0 < (encode (canonical (nested 1000))).length ∧
      (encode (canonical (nested 1000))).length ≤ MAX_FRAME := by
    rw [nested_length]
    decide
  have hnow : ∀ chunk ∈ [nested_chunk], chunk.now < 2 := List.forall_mem_singleton.mpr (by decide)
  exact ⟨nested_wellFormed 1000, _, nested_written, nested_sends,
    @Sends.refused _ _ _ _ shallow_decoder _ nested_sends
      ⟨by decide, rfl, rfl⟩ hbounds hnow nested_decode⟩

end pepeuch_worker
