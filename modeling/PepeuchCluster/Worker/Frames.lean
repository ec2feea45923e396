import PepeuchCluster.Json.Bytes
import PepeuchCluster.Worker.Channel

namespace pepeuch_worker

open control_plane (canonical encode)

/-! ### What is received -/

/-- The arrival carries these credentials and nothing else. -/
structure Carries (arrival : Arrival) (writer : Credentials) : Prop where
  alone : arrival.ancillary = [.credentials writer]
  whole : arrival.truncated = false

def Credentials.Root (writer : Credentials) : Prop :=
  0 < writer.pid ∧ writer.uid = 0 ∧ writer.gid = 0

instance (writer : Credentials) : Decidable writer.Root := inferInstanceAs (Decidable (_ ∧ _))

/-- The arrivals fill what is asked for, and none is left over: each brings a part of this writer
    that is not empty, of which only what is still missing is taken. -/
inductive Fills (writer : Credentials) : Nat → List Arrival → List UInt8 → Prop where
  | full : Fills writer 0 [] []
  | more {size : Nat} {arrival : Arrival} {part bytes : List UInt8} {arrivals : List Arrival}
      (hsize : 0 < size) (hpart : arrival.part = .ok part) (hne : part ≠ [])
        (hcarries : Carries arrival writer)
      (hrest : Fills writer (size - part.length) arrivals bytes) :
      Fills writer size (arrival :: arrivals) (part.take size ++ bytes)

/-- A frame from one writer with the property: four bytes with a length within the bounds, and as
    many bytes, which are decoded to the reply. -/
structure Framed [Codecs] (P : Credentials → Prop) (arrivals : List Arrival) (reply : Json)
    (writer : Credentials) : Prop where
  permitted : P writer
  frame : ∃ head tail rest header body, arrivals = head ++ (tail ++ rest) ∧
    Fills writer 4 head header ∧ (0 < big_endian header ∧ big_endian header ≤ MAX_FRAME) ∧
    Fills writer (big_endian header) tail body ∧
      decode_bytes body = .ok reply

/-- A frame with the reply, of which every part was written by the same process of root. -/
def Received [Codecs] (peer : Peer) (reply : Json) (writer : Credentials) : Prop :=
  Framed Credentials.Root peer.arrivals reply writer

theorem credentials_alone {ancillary : List Ancillary} : ∀ {credentials : List Credentials},
    credentials_of ancillary = .ok (credentials, false) →
      ancillary = credentials.map .credentials := by
  induction ancillary with
  | nil =>
    intro credentials h
    obtain ⟨rfl, _⟩ := Prod.mk.inj (Except.ok.inj h)
    rfl
  | cons message rest ih =>
    intro credentials h
    cases message with
    | credentials value =>
      simp only [credentials_of, Except.bind_eq_ok, Except.pure_eq_ok, Prod.exists,
        Prod.mk.injEq] at h
      obtain ⟨others, unexpected, hrest, rfl, rfl⟩ := h
      rw [List.map_cons, ih hrest]
    | other closed =>
      simp only [credentials_of, Except.bind_eq_ok, Except.pure_eq_ok, Prod.exists,
        Prod.mk.injEq] at h
      obtain ⟨_, _, _, _, _, _, hfalse⟩ := h
      cases hfalse

theorem writer_of_ok {writer : Option Credentials} {arrival : Arrival} {value : Credentials}
    (h : writer_of writer arrival = .ok value) :
    Carries arrival value ∧ value.Root ∧ ∀ other ∈ writer, other = value := by
  simp only [writer_of, Except.bind_eq_ok] at h
  obtain ⟨⟨credentials, unexpected⟩, hcredentials, h⟩ := h
  dsimp only at h
  split at h
  · simp only [Except.bind_eq_ok, Except.require_eq_ok, Except.pure_eq_ok, exists_const] at h
    obtain ⟨⟨htruncated, rfl, hpid, huid, hgid, hother⟩, rfl⟩ := h
    exact ⟨⟨credentials_alone hcredentials, htruncated⟩, ⟨hpid, huid, hgid⟩, hother⟩
  · cases h

/-- What a receiving loop takes: parts that are not empty, all of one writer with the property. -/
inductive Takes (P : Credentials → Prop) (size : Nat) :
    Option Credentials → List UInt8 → List Arrival →
      List UInt8 × Option Credentials × List Arrival → Prop where
  | full {writer : Option Credentials} {parts : List UInt8} {arrivals : List Arrival}
      (h : ¬ parts.length < size) :
      Takes P size writer parts arrivals (parts, writer, arrivals)
  | more {writer : Option Credentials} {parts part : List UInt8} {arrival : Arrival}
      {arrivals : List Arrival} {value : Credentials}
      {out : List UInt8 × Option Credentials × List Arrival} (h : parts.length < size)
        (hpart : arrival.part = .ok part)
      (hne : part ≠ []) (hcarries : Carries arrival value) (hvalue : P value)
        (hsame : ∀ other ∈ writer, other = value)
      (hrest : Takes P size (some value) (parts ++ part.take (size - parts.length)) arrivals out) :
      Takes P size writer parts (arrival :: arrivals) out

section Loops

variable {P : Credentials → Prop} {deadline : ℚ} {size : Nat} {writer writer' : Option Credentials}
  {parts bytes : List UInt8}
  {arrivals rest : List Arrival}

/-- A loop that knows the writer fills what is missing, all from that writer. -/
theorem Takes.fills {out : List UInt8 × Option Credentials × List Arrival} {value : Credentials}
    (h : Takes P size writer parts arrivals out) (hwriter : writer = some value)
    (hparts : parts.length ≤ size) :
    out.2.1 = some value ∧ ∃ used bytes, arrivals = used ++ out.2.2 ∧ out.1 = parts ++ bytes ∧
      Fills value (size - parts.length) used bytes := by
  induction h with
  | full hfull =>
    refine ⟨hwriter, [], [], rfl, (List.append_nil _).symm, ?_⟩
    rw [Nat.sub_eq_zero_of_le (not_lt.mp hfull)]
    exact .full
  | @more writer parts part arrival arrivals other out hless hpart hne hcarries hvalue
      hsame hrest ih =>
    obtain rfl : value = other := hsame value hwriter
    have htaken : (parts ++ part.take (size - parts.length)).length ≤ size := by
      rw [List.length_append, List.length_take]
      omega
    obtain ⟨hlast, used, bytes, hused, hbytes, hfills⟩ := ih rfl htaken
    have hmissing : size - (parts ++ part.take (size - parts.length)).length =
        size - parts.length - part.length := by
      rw [List.length_append, List.length_take]
      omega
    rw [hmissing] at hfills
    refine ⟨hlast, arrival :: used,
      part.take (size - parts.length) ++ bytes, by rw [hused, List.cons_append], ?_, ?_⟩
    · rw [hbytes, List.append_assoc]
    · exact .more (Nat.sub_pos_of_lt hless) hpart hne hcarries hfills

theorem returned_eq_ok {α : Type} {result : Syscall α} {a : α} : returned result = .ok a ↔
    result = .ok a := by
  cases result with
  | ok b => exact ⟨fun h => congrArg Except.ok (Except.ok.inj h),
      fun h => congrArg Except.ok (Except.ok.inj h)⟩
  | error fault => exact iff_of_false nofun nofun

/-- The loop of `transfer` takes parts of root. -/
theorem receive_takes {out : List UInt8 × Option Credentials × List Arrival}
    (h : receive deadline size writer parts arrivals = .ok out) :
    Takes Credentials.Root size writer parts arrivals out := by
  induction arrivals generalizing writer parts with
  | nil =>
    rw [receive] at h
    split at h
    · cases h
    · next hfull =>
      obtain rfl := Except.ok.inj h
      exact .full hfull
  | cons arrival arrivals ih =>
    rw [receive] at h
    split at h
    · next hless =>
      simp only [Except.bind_eq_ok, Except.require_eq_ok, exists_const, returned_eq_ok] at h
      obtain ⟨_, part, hpart, value, hvalue, hne, h⟩ := h
      obtain ⟨hcarries, hroot, hsame⟩ := writer_of_ok hvalue
      exact .more hless hpart hne hcarries hroot hsame (ih h)
    · next hfull =>
      obtain rfl := Except.ok.inj h
      exact .full hfull

end Loops

/-- Two loops, one for the header and one for the body, take a frame. -/
theorem framed_of_takes [Codecs] {P : Credentials → Prop} {arrivals : List Arrival}
    {header body : List UInt8} {first last : Option Credentials}
    {middle rest : List Arrival} {reply : Json}
    (hheader : Takes P 4 none [] arrivals (header, first, middle))
    (hbounds : 0 < big_endian header ∧ big_endian header ≤ MAX_FRAME)
    (hbody : Takes P (big_endian header) first [] middle (body, last, rest))
    (hreply : decode_bytes body = .ok reply) :
    ∃ value, last = some value ∧ Framed P arrivals reply value := by
  -- the first part of the header names the writer
  cases hheader with
  | full hfull => exact absurd (by decide) hfull
  | @more _ _ part arrival arrivals value _ hless hpart hne hcarries hvalue _ hrest =>
    have htaken : ([] ++ part.take (4 - ([] : List UInt8).length)).length ≤ 4 := by
      rw [List.length_append, List.length_take, List.length_nil]
      omega
    obtain ⟨rfl, used, bytes, rfl, hheader, hfills⟩ := hrest.fills rfl htaken
    have hmissing : 4 - ([] ++ part.take (4 - ([] : List UInt8).length)).length =
        4 - part.length := by
      rw [List.length_append, List.length_take, List.length_nil]
      omega
    rw [hmissing] at hfills
    obtain ⟨hlast, tail, content, rfl, hcontent, htail⟩ := hbody.fills rfl (Nat.zero_le _)
    dsimp only at hheader hlast hcontent
    rw [List.nil_append] at hheader hcontent
    subst hheader hcontent
    exact ⟨value, hlast, hvalue, arrival :: used, tail, rest, _, _, rfl,
      .more hless hpart hne hcarries hfills, hbounds, htail, hreply⟩

theorem receive_frame_ok [Codecs] {deadline : ℚ} {arrivals : List Arrival} {reply : Json}
    {writer : Option Credentials} (h : receive_frame deadline arrivals = .ok (reply, writer)) :
    ∃ value, writer = some value ∧ Framed Credentials.Root arrivals reply value := by
  simp only [receive_frame, Except.bind_eq_ok, Except.require_eq_ok, Except.pure_eq_ok,
    exists_const, Prod.exists, Prod.mk.injEq] at h
  obtain ⟨header, first, middle, hheader, hbounds, body, last, rest, hbody, _, hreply, rfl, rfl⟩ :=
    h
  exact framed_of_takes (receive_takes hheader) hbounds (receive_takes hbody) hreply

/-- A transfer that ends returns a reply from one writer. -/
theorem transfer_ok [Codecs] {python : Interpreter} {peer : Peer} {raw reply : Json}
    {writer : Option Credentials} (h : python.transfer peer raw = .ok (reply, writer)) :
    ∃ value, writer = some value ∧ Received peer reply value := by
  simp only [Interpreter.transfer, Except.bind_eq_ok] at h
  obtain ⟨_, _, _, _, _, _, h⟩ := h
  exact receive_frame_ok h

/-! ### What is sent -/

theorem big_endian_pack {size : Nat} (h : size < 2 ^ 32) : big_endian (pack size) = size := by
  simp only [pack, big_endian, List.foldl_cons, List.foldl_nil, UInt8.toNat_ofNat']
  omega

theorem isUtf8_ascii {first : UInt8} {bytes : List UInt8} (hfirst : first.toNat < 128)
    (hbytes : ∀ byte ∈ first :: bytes, byte ≠ 0) :
    isUtf8 (first :: bytes) = true := by
  have hnonzero : ∀ {a b : UInt8}, a ≠ 0 → b ≠ 0 → (a ≠ 0 && b ≠ 0) = true := by
    intro a b ha hb
    rw [decide_eq_true ha, decide_eq_true hb, Bool.and_self]
  have hmarks : ([[0xFE, 0xFF], [0xFF, 0xFE], [0xEF, 0xBB, 0xBF]].all
      fun mark => !mark.isPrefixOf (first :: bytes)) = true := by
    have hmark : ∀ {byte : UInt8} {rest : List UInt8}, 128 ≤ byte.toNat →
        (!(byte :: rest).isPrefixOf (first :: bytes)) = true := by
      intro byte rest hbyte
      have hne : byte ≠ first := by
        rintro rfl
        omega
      rw [List.isPrefixOf_cons_cons, beq_eq_false_iff_ne.mpr hne, Bool.false_and, Bool.not_false]
    rw [List.all_eq_true]
    simp only [List.forall_mem_cons]
    exact ⟨hmark (by decide), hmark (by decide), hmark (by decide), List.forall_mem_nil _⟩
  unfold isUtf8
  rw [hmarks, Bool.true_and]
  split
  · next heq =>
    rw [heq] at hbytes
    exact hnonzero (hbytes _ (by simp)) (hbytes _ (by simp))
  · next heq =>
    rw [heq] at hbytes
    exact hnonzero (hbytes _ (by simp)) (hbytes _ (by simp))
  · rfl

/-- A canonical text is not taken for another encoding. -/
theorem isUtf8_canonical (value : Json) : isUtf8 (encode (canonical value)) = true := by
  obtain ⟨c, tail, hrender, hstart⟩ := Json.render_head value
  have hnonul := Json.noNul_render value
  have hascii : String.utf8EncodeChar c = [UInt8.ofNat c.toNat] := by
    have hle : c.val.toNat ≤ 0x7f := Nat.lt_succ_iff.mp hstart.ascii
    exact if_pos hle
  rw [hrender] at hnonul
  rw [encode, canonical, String.toList_ofList, hrender, List.flatMap_cons, hascii,
    List.singleton_append]
  refine isUtf8_ascii ?_ ?_
  · have hless := hstart.ascii
    rw [UInt8.toNat_ofNat']
    omega
  · rw [← List.singleton_append, ← hascii, ← List.flatMap_cons]
    intro byte hbyte
    obtain ⟨d, hd, hmem⟩ := List.mem_flatMap.mp hbyte
    exact Json.utf8EncodeChar_ne_zero (hnonul d hd) byte hmem

/-- A canonical text is decoded to the value that it was made of, as far as the decoder follows
    it. -/
theorem decode_text [Codecs] {value : Json} (h : value.WellFormed) :
    decode_bytes (encode (canonical value)) = do decoded value; return value := by
  rw [decode_bytes, if_pos (isUtf8_canonical value), encode, Json.fromUTF8_flatMap]
  dsimp only
  rw [control_plane.decode_canonical h]
  rfl

theorem decode_encode [Codecs] {value : Json} (h : value.WellFormed)
    (hdecoded : decoded value = .ok ()) :
    decode_bytes (encode (canonical value)) = .ok value := by
  rw [decode_text h, hdecoded]
  rfl

theorem credentials_of_alone (writer : Credentials) :
    credentials_of [.credentials writer] = .ok ([writer], false) := rfl

theorem writer_of_carries {arrival : Arrival} {value : Credentials} {writer : Option Credentials}
    (h : Carries arrival value) (hroot : value.Root) (hsame : ∀ other ∈ writer, other = value) :
    writer_of writer arrival = .ok value := by
  obtain ⟨hpid, huid, hgid⟩ := hroot
  rw [writer_of, h.alone, credentials_of_alone]
  have hdemand : Except.require
    (arrival.truncated = false ∧ false = false ∧ 0 < value.pid ∧ value.uid = 0 ∧ value.gid = 0 ∧
      ∀ other ∈ writer, other = value) unverified = .ok () :=
    Except.require_eq_ok.mpr ⟨h.whole, rfl, hpid, huid, hgid, hsame⟩
  rw [Except.ok_bind]
  dsimp only
  rw [hdemand]
  rfl

variable {deadline : ℚ} {value : Credentials} {writer : Option Credentials}

/-- A part that completes a frame. -/
theorem receive_part {arrival : Arrival} {part : List UInt8} (rest : List Arrival)
    (hnow : arrival.now < deadline) (hpart : arrival.part = .ok part) (hne : part ≠ [])
    (hcarries : Carries arrival value) (hroot : value.Root)
    (hsame : ∀ other ∈ writer, other = value) :
    receive deadline part.length writer [] (arrival :: rest) = .ok (part, some value, rest) := by
  have hlength : ([] : List UInt8).length < part.length := List.length_pos_iff.mpr hne
  have hdone : receive deadline part.length (some value) part rest =
      .ok (part, some value, rest) := by
    cases rest with
    | nil => exact if_neg (lt_irrefl _)
    | cons other rest => exact if_neg (lt_irrefl _)
  have hreturned : returned arrival.part = .ok part := by
    rw [hpart]
    rfl
  rw [receive, if_pos hlength, show Except.require (arrival.now < deadline) unverified =
    .ok () from Except.require_eq_ok.mpr hnow, Except.ok_bind, hreturned, Except.ok_bind,
    writer_of_carries hcarries hroot hsame, Except.ok_bind, show Except.require
      (part ≠ []) unverified = .ok () from Except.require_eq_ok.mpr hne, Except.ok_bind,
    List.nil_append, List.length_nil, Nat.sub_zero, List.take_length, hdone]

/-- What one writer sends, in a part for the header and one for the body. -/
def frame (now : ℚ) (writer : Credentials) (body : List UInt8) : List Arrival :=
  [⟨now, .ok (pack body.length), [.credentials writer], false⟩,
    ⟨now, .ok body, [.credentials writer], false⟩]

/-- A transfer with a peer of root that sends a frame returns its value. -/
theorem transfer_frame [Codecs] {python : Interpreter} {raw reply : Json} {now : ℚ}
    {body : List UInt8} (hnow : now < deadline)
    (hraw : Json.traverse Failure.recursion_error .value_error python.encode_depth raw = .ok ())
    (hsize : (encode (canonical raw)).length ≤ MAX_FRAME) (hroot : value.Root)
    (hreply : decode_bytes body = .ok reply) (hpos : 0 < body.length)
    (hlength : body.length ≤ MAX_FRAME) :
    python.transfer ⟨deadline, .ok (), .ok (), frame now value body⟩ raw =
      .ok (reply, some value) := by
  have hlimit : body.length < 2 ^ 32 := lt_of_le_of_lt hlength (by decide)
  have hnone : ∀ other ∈ (none : Option Credentials), other = value := nofun
  have hsome : ∀ other ∈ some value, other = value := fun _ h => (Option.some.inj h).symm
  have hheader : receive deadline 4 none [] (frame now value body) =
      .ok (pack body.length, some value, [⟨now, .ok body, [.credentials value], false⟩]) := by
    rw [show 4 = (pack body.length).length from rfl]
    exact receive_part _ hnow rfl (List.cons_ne_nil _ _) ⟨rfl, rfl⟩ hroot hnone
  have hbody :
    receive deadline body.length (some value) [] [⟨now, .ok body, [.credentials value], false⟩] =
      .ok (body, some value, []) :=
    receive_part _ hnow rfl (List.ne_nil_of_length_pos hpos) ⟨rfl, rfl⟩ hroot hsome
  have hbounds : Except.require (0 < body.length ∧ body.length ≤ MAX_FRAME) unverified = .ok () :=
    Except.require_eq_ok.mpr ⟨hpos, hlength⟩
  have hsent : Except.require ((encode (canonical raw)).length ≤ MAX_FRAME) unverified = .ok () :=
    Except.require_eq_ok.mpr hsize
  have hreturned : returned (.ok () : Syscall Unit) = .ok () := rfl
  have hwritten : python.written raw =
      .ok (pack (encode (canonical raw)).length ++ encode (canonical raw)) := by
    rw [Interpreter.written, hraw, Except.ok_bind, hsent]
    rfl
  rw [Interpreter.transfer, hreturned, Except.ok_bind, hwritten, Except.ok_bind,
    Except.ok_bind, receive_frame]
  simp only [Except.ok_bind, hheader, big_endian_pack hlimit, hbounds, hbody, hreply]
  rfl

end pepeuch_worker
