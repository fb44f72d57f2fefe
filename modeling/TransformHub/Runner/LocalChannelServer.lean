import Mathlib.Data.List.Induction
import TransformHub.Js.StringDecoder
import TransformHub.Js.Text
import TransformHub.Host.CsiDispatcher

/-!
# Local channels of a runner

A runtime child opens a connection to `LocalChannelServer` for each channel and begins it with a
header: the instance id and the index of the channel.
-/

namespace TransformHub.Runner

open Js Host.Instances

/-! ## Channels -/

inductive CommunicationChannel
  | stdin
  | stdout
  | stderr
  | control
  | monitoring
  | «in»
  | out
  | log
  | requests
deriving DecidableEq

namespace CommunicationChannel

def index : CommunicationChannel → ℕ
  | stdin => 0
  | stdout => 1
  | stderr => 2
  | control => 3
  | monitoring => 4
  | «in» => 5
  | out => 6
  | log => 7
  | requests => 8

/-- The channel with a number, when it is one from `0` to `CC.REQUESTS`. -/
def ofIndex (n : ℤ) : Option CommunicationChannel :=
  [stdin, stdout, stderr, control, monitoring, «in», out, log, requests].find? (·.index = n)

def supported : List CommunicationChannel := [«in», out, log]

def reserved : List CommunicationChannel := [requests]

end CommunicationChannel

open CommunicationChannel (supported reserved)

/-! ## Clients -/

/-- What `HostClient.connect` writes on a connection: the id, then `channelIdx.toString()`. -/
def hostClientHeader (id : String) (ch : CommunicationChannel) : List UInt8 :=
  encodeUtf8 id ++ encodeUtf8 (toString ch.index)

/-- `ChannelCode` of the Python runtime. -/
inductive ChannelCode
  | «in»
  | out
  | log

namespace ChannelCode

def value : ChannelCode → String
  | «in» => "5"
  | out => "6"
  | log => "7"

/-- The channel that the code is named after. -/
def channel : ChannelCode → CommunicationChannel
  | «in» => .in
  | out => .out
  | log => .log

end ChannelCode

/-- `text.encode("ascii")`, which raises at any other character. -/
def encodeAscii (text : String) : Option (List UInt8) :=
  if text.toList.all (·.toNat < 128) then some (asciiBytes text.toList) else none

def handshake (id : String) (code : ChannelCode) : Option (List UInt8) :=
  encodeAscii (id ++ code.value)

/-- One of the two clients begins its connection for the channel with this header. -/
def WritesHeader (id : String) (ch : CommunicationChannel) (header : List UInt8) : Prop :=
  header = hostClientHeader id ch ∨ ∃ code, code.channel = ch ∧ handshake id code = some header

/-! ## Server -/

def headerLen : ℕ := 37

def pythonHeaderLen : ℕ := 38

def idLen : ℕ := 36

/-- `buffer.slice(start, end).toString("utf8")`. -/
def sliceText (start stop : ℕ) (bs : List UInt8) : String :=
  decodeUtf8 ((bs.take stop).drop start)

inductive Connection
  /-- the header is not complete -/
  | reading (headerBuffer : List UInt8)
  /-- the socket is registered for the channel, with the bytes that its reader gets -/
  | accepted (id : String) (ch : CommunicationChannel) (stream : List UInt8)
  | destroyed
deriving DecidableEq

/-- The body of `onData`, once the chunk is appended to the buffer. -/
def parseHeader (expectedInstanceId : Option String) (headerBuffer : List UInt8) : Connection :=
  if headerBuffer.length < headerLen then .reading headerBuffer
  else
    let id := sliceText 0 idLen headerBuffer
    let usesPythonSeparator := sliceText idLen headerLen headerBuffer = "\n"
    if usesPythonSeparator ∧ headerBuffer.length < pythonHeaderLen then .reading headerBuffer
    else
      let channelOffset := if usesPythonSeparator then headerLen else idLen
      let headerLength := if usesPythonSeparator then pythonHeaderLen else headerLen
      let parsed := parseInt (sliceText channelOffset headerLength headerBuffer)
      -- the tail is put back with `unshift`, before what comes next
      let tail := headerBuffer.drop headerLength
      if expectedInstanceId.any (id ≠ ·) then .destroyed
      else
        match parsed.bind CommunicationChannel.ofIndex with
        | none => .destroyed
        | some ch => if ch ∈ supported ∨ ch ∈ reserved then .accepted id ch tail else .destroyed

def onData (expectedInstanceId : Option String) (c : Connection) (chunk : List UInt8) :
    Connection :=
  match c with
  | .reading headerBuffer => parseHeader expectedInstanceId (headerBuffer ++ chunk)
  | .accepted id ch stream => .accepted id ch (stream ++ chunk)
  | .destroyed => .destroyed

def receive (expectedInstanceId : Option String) (chunks : List (List UInt8)) : Connection :=
  chunks.foldl (onData expectedInstanceId) (.reading [])

/-! ## Headers -/

def CommunicationChannel.digit (ch : CommunicationChannel) : UInt8 := UInt8.ofNat (48 + ch.index)

variable {id : String}

theorem ascii_of_isChannelInstanceId (h : isChannelInstanceId id = true) :
    ∀ c ∈ id.toList, c.toNat < 128 := by
  have hclass : ∀ c : Char, (c.isAlphanum || c = '-') = true → c.toNat < 128 := by
    intro c hc
    rw [Bool.or_eq_true, decide_eq_true_eq] at hc
    obtain halnum | rfl := hc
    · delta Char.isAlphanum Char.isAlpha Char.isUpper Char.isLower Char.isDigit at halnum
      simp only [Bool.or_eq_true, Bool.and_eq_true, decide_eq_true_eq,
        UInt32.le_iff_toNat_le] at halnum
      simp at halnum
      omega
    · decide
  rw [isChannelInstanceId] at h
  split at h
  · exact absurd h (by decide)
  · rename_i c cs hid
    simp only [Bool.and_eq_true, List.all_eq_true] at h
    rw [hid]
    intro d hd
    obtain rfl | hmem := List.mem_cons.mp hd
    · exact hclass d (by simp [h.1.1.1])
    · exact hclass d (h.1.2 d hmem)

theorem encodeUtf8_index (ch : CommunicationChannel) :
    encodeUtf8 (toString ch.index) = [ch.digit] := by
  cases ch <;> decide +kernel

theorem value_toList (code : ChannelCode) :
    asciiBytes code.value.toList = [code.channel.digit] := by
  cases code <;> rfl

variable {ch : CommunicationChannel}

theorem WritesHeader.eq {header : List UInt8} (hid : isChannelInstanceId id = true)
    (h : WritesHeader id ch header) :
    header = asciiBytes id.toList ++ [ch.digit] := by
  obtain hnode | ⟨code, rfl, hpython⟩ := h
  · rw [hnode, hostClientHeader, encodeUtf8_ascii (ascii_of_isChannelInstanceId hid),
      encodeUtf8_index]
  · rw [handshake, encodeAscii] at hpython
    split at hpython
    · rw [← Option.some_inj.mp hpython, String.toList_append, asciiBytes, List.map_append]
      exact congrArg _ (value_toList code)
    · exact absurd hpython (by simp)

theorem sliceText_middle (a m b : List UInt8) :
    sliceText a.length (a.length + m.length) (a ++ m ++ b) = decodeUtf8 m := by
  rw [sliceText, ← List.length_append, List.take_left, List.drop_left]

theorem decodeUtf8_digit (ch : CommunicationChannel) :
    decodeUtf8 [ch.digit] ≠ "\n" ∧
      (parseInt (decodeUtf8 [ch.digit])).bind CommunicationChannel.ofIndex = some ch := by
  cases ch <;> decide +kernel

variable {expected : Option String}

theorem parseHeader_header (hid : isChannelInstanceId id = true)
    (hexpected : expected = none ∨ expected = some id) (hch : ch ∈ supported ∨ ch ∈ reserved)
    (hlen : id.length = 36) (rest : List UInt8) :
    parseHeader expected (asciiBytes id.toList ++ [ch.digit] ++ rest) = .accepted id ch rest := by
  have hbytes : (asciiBytes id.toList).length = idLen := by
    rw [length_asciiBytes, String.length_toList, hlen]
    rfl
  have hheader : (asciiBytes id.toList ++ [ch.digit]).length = headerLen := by
    rw [List.length_append, hbytes]
    rfl
  have hidText : sliceText 0 idLen (asciiBytes id.toList ++ [ch.digit] ++ rest) = id := by
    have hslice := sliceText_middle [] (asciiBytes id.toList) ([ch.digit] ++ rest)
    rw [List.nil_append, List.length_nil, Nat.zero_add, hbytes, ← List.append_assoc,
      decodeUtf8_ascii (ascii_of_isChannelInstanceId hid), String.ofList_toList] at hslice
    exact hslice
  have hdigit : sliceText idLen headerLen (asciiBytes id.toList ++ [ch.digit] ++ rest) =
      decodeUtf8 [ch.digit] := by
    have hslice := sliceText_middle (asciiBytes id.toList) [ch.digit] rest
    rw [hbytes] at hslice
    exact hslice
  have hcomplete : ¬ (asciiBytes id.toList ++ [ch.digit] ++ rest).length < headerLen := by
    rw [List.length_append, hheader]
    omega
  have htail : (asciiBytes id.toList ++ [ch.digit] ++ rest).drop headerLen = rest := by
    rw [← hheader, List.drop_left]
  have hmatch : expected.any (id ≠ ·) = false := by
    obtain rfl | rfl := hexpected
    · rfl
    · simp
  rw [parseHeader, if_neg hcomplete]
  simp only [hidText, hdigit, (decodeUtf8_digit ch).1, (decodeUtf8_digit ch).2, false_and, if_false,
    hmatch, htail, Bool.false_eq_true]
  exact if_pos hch

/-! ## Connections -/

/-- After a part of the bytes of such a client, the connection keeps them or has its stream. -/
def afterBytes (id : String) (ch : CommunicationChannel) (bytes : List UInt8) : Connection :=
  if bytes.length < headerLen then .reading bytes else .accepted id ch (bytes.drop headerLen)

section

variable (hid : isChannelInstanceId id = true) (hexpected : expected = none ∨ expected = some id)
  (hch : ch ∈ supported ∨ ch ∈ reserved) (hlen : id.length = 36)
include hid hexpected hch hlen

theorem onData_afterBytes {bytes chunk payload : List UInt8}
    (hstart : bytes ++ chunk <+: asciiBytes id.toList ++ [ch.digit] ++ payload) :
    onData expected (afterBytes id ch bytes) chunk = afterBytes id ch (bytes ++ chunk) := by
  have hheader : (asciiBytes id.toList ++ [ch.digit]).length = headerLen := by
    rw [List.length_append, length_asciiBytes, String.length_toList, hlen]
    rfl
  unfold afterBytes
  by_cases hbytes : bytes.length < headerLen
  · rw [if_pos hbytes]
    by_cases hall : (bytes ++ chunk).length < headerLen
    · rw [if_pos hall]
      exact if_pos hall
    · -- the chunk completes the header
      rw [if_neg hall]
      obtain ⟨rest, hrest⟩ : asciiBytes id.toList ++ [ch.digit] <+: bytes ++ chunk :=
        List.prefix_of_prefix_length_le (List.prefix_append _ _) hstart (by omega)
      rw [onData, ← hrest, parseHeader_header hid hexpected hch hlen, ← hheader, List.drop_left]
  · have hlonger : ¬ (bytes ++ chunk).length < headerLen := by
      rw [List.length_append]
      omega
    rw [if_neg hbytes, if_neg hlonger, List.drop_append_of_le_length (Nat.le_of_not_lt hbytes)]
    rfl

theorem receive_eq_afterBytes {payload : List UInt8} (chunks : List (List UInt8))
    (hstart : chunks.flatten <+: asciiBytes id.toList ++ [ch.digit] ++ payload) :
    receive expected chunks = afterBytes id ch chunks.flatten := by
  induction chunks using List.reverseRecOn with
  | nil => rfl
  | append_singleton chunks chunk ih =>
    rw [List.flatten_append, List.flatten_singleton] at hstart ⊢
    have hbefore := ih ((List.prefix_append _ _).trans hstart)
    rw [receive] at hbefore ⊢
    rw [List.foldl_append, hbefore]
    exact onData_afterBytes hid hexpected hch hlen hstart

end

/-- An id that the parser has read is the text of the first bytes of the connection. -/
def ReadsId (bytes : List UInt8) : Connection → Prop
  | .reading headerBuffer => headerBuffer = bytes
  | .accepted id _ _ => idLen ≤ bytes.length ∧ id = decodeUtf8 (bytes.take idLen)
  | .destroyed => True

theorem parseHeader_readsId (expected : Option String) (bytes : List UInt8) :
    ReadsId bytes (parseHeader expected bytes) := by
  rw [parseHeader]
  split
  · rfl
  · rename_i hcomplete
    dsimp only
    split
    · rfl
    · split
      · trivial
      · split
        · trivial
        · split
          · refine ⟨?_, rfl⟩
            have : idLen ≤ headerLen := by decide
            omega
          · trivial

theorem receive_readsId (expected : Option String) (chunks : List (List UInt8)) :
    ReadsId chunks.flatten (receive expected chunks) := by
  induction chunks using List.reverseRecOn with
  | nil => rfl
  | append_singleton chunks chunk ih =>
    rw [List.flatten_append, List.flatten_singleton]
    rw [receive] at ih ⊢
    rw [List.foldl_append, List.foldl_cons, List.foldl_nil]
    cases hc : List.foldl (onData expected) (.reading []) chunks with
    | reading headerBuffer =>
      rw [hc] at ih
      rw [onData, show headerBuffer = chunks.flatten from ih]
      exact parseHeader_readsId _ _
    | accepted id ch stream =>
      rw [hc] at ih
      obtain ⟨hlong, hread⟩ := ih
      refine ⟨?_, ?_⟩
      · rw [List.length_append]
        omega
      · rw [hread, List.take_append_of_le_length hlong]
    | destroyed => trivial

theorem length_of_accepted {ch ch' : CommunicationChannel} (hid : isChannelInstanceId id = true)
    {chunks : List (List UInt8)} {payload stream : List UInt8}
    (hchunks : chunks.flatten = asciiBytes id.toList ++ [ch.digit] ++ payload)
    (haccepted : receive expected chunks = .accepted id ch' stream) : id.length = 36 := by
  have hread := receive_readsId expected chunks
  rw [haccepted, hchunks] at hread
  obtain ⟨hlong, htext⟩ := hread
  have hascii := ascii_of_isChannelInstanceId hid
  have hlen : (asciiBytes id.toList).length = id.length := by
    rw [length_asciiBytes, String.length_toList]
  by_contra hne
  obtain hshort | hlonger : id.length < idLen ∨ idLen < id.length := Nat.lt_or_gt_of_ne hne
  · -- at least the byte of the channel is read as a part of the id
    rw [List.append_assoc, List.take_append, hlen,
      List.take_of_length_le (by rw [hlen]; exact Nat.le_of_lt hshort)] at htext
    refine decodeUtf8_ascii_append_ne hascii ?_ (htext.symm.trans String.ofList_toList.symm)
    obtain ⟨k, hk⟩ := Nat.exists_eq_add_of_lt hshort
    rw [hk, show id.length + k + 1 - id.length = k + 1 by omega]
    simp
  · rw [List.append_assoc, List.take_append_of_le_length (by rw [hlen]; exact Nat.le_of_lt hlonger),
      asciiBytes, ← List.map_take, ← asciiBytes,
      decodeUtf8_ascii fun c hc => hascii c (List.mem_of_mem_take hc)] at htext
    have hsame := congrArg String.length htext
    rw [String.length_ofList, List.length_take, String.length_toList] at hsame
    omega

/-- The server reads the id and the channel back, and gives every other byte to the stream, exactly
for the ids of 36 characters. -/
theorem receive_header_iff {expected : Option String} {id : String} {ch : CommunicationChannel}
    {header payload : List UInt8} {chunks : List (List UInt8)}
    (hid : isChannelInstanceId id = true) (hexpected : expected = none ∨ expected = some id)
    (hch : ch ∈ supported ∨ ch ∈ reserved) (hheader : WritesHeader id ch header)
    (hchunks : chunks.flatten = header ++ payload) :
    receive expected chunks = .accepted id ch payload ↔ id.length = 36 := by
  rw [hheader.eq hid] at hchunks
  refine ⟨length_of_accepted hid hchunks, fun hlen => ?_⟩
  have hlong : (asciiBytes id.toList ++ [ch.digit]).length = headerLen := by
    rw [List.length_append, length_asciiBytes, String.length_toList, hlen]
    rfl
  have hall : chunks.flatten <+: asciiBytes id.toList ++ [ch.digit] ++ payload :=
    hchunks ▸ List.prefix_refl _
  have hcomplete : ¬ (asciiBytes id.toList ++ [ch.digit] ++ payload).length < headerLen := by
    rw [List.length_append, hlong]
    omega
  rw [receive_eq_afterBytes hid hexpected hch hlen chunks hall, hchunks, afterBytes,
    if_neg hcomplete, ← hlong, List.drop_left]

theorem receive_uuid :
    receive (some "123e4567-e89b-12d3-a456-426614174000")
        [(hostClientHeader "123e4567-e89b-12d3-a456-426614174000" .out).take 20,
          (hostClientHeader "123e4567-e89b-12d3-a456-426614174000" .out).drop 20 ++ [104], [105]] =
      .accepted "123e4567-e89b-12d3-a456-426614174000" .out [104, 105] :=
  (receive_header_iff (by decide +kernel) (.inr rfl) (.inl (by decide)) (.inl rfl)
    (by decide +kernel)).mpr (by decide +kernel)

/-- The host admits this id, and the runner destroys the connection of its own child. -/
theorem receive_shortId :
    isChannelInstanceId "my-instance" = true ∧ CommunicationChannel.out ∈ supported ∧
      WritesHeader "my-instance" .out (hostClientHeader "my-instance" .out) ∧
      receive (some "my-instance")
          [hostClientHeader "my-instance" .out, asciiBytes "a payload of more than 25 bytes".toList] =
        .destroyed :=
  ⟨by decide +kernel, by decide, .inl rfl, by decide +kernel⟩

end TransformHub.Runner
