import Cimple.Lib.StringReader
import Cimple.Json

/-!
# Messages and their limits (`buf.c`, `json.c`)

A JSON value travels as its text with the terminating NUL, in one frame.

* `Tokener` — the parser of json-c: it gets a pointer, reads the string behind it byte after
  byte, and stops at a NUL, at a syntax error or behind a complete value.
* `libjsonRecv` — what is received is handed to the parser, with nothing but a pointer.
* `SafeParse` — no byte at or beyond the received length is read.
* `SendContract` — what sending promises.

Principal results: `libjsonRecv_safe_iff` (which frames are safe to receive) and
`libjsonSend_contract_iff` (which values are sent as they are).
-/

set_option autoImplicit false

namespace Cimple.Messages

open Octets JsonValue ByteStream StringReader Cimple.Json Cimple.Net

/-! ## Receiving -/

/-- `json_tokener_parse_verbose`: when it stops, and the value it makes of the bytes it has
read. -/
structure Tokener extends Reader where
  value : Bytes → Option Json

/-- A call of the parser: the length of the buffer it was given and the bytes it has read. -/
structure Parse where
  size : Nat
  bytes : Bytes

/-- The outcome of `libjson_recv`: the value, and the call of the parser, if it came to that. -/
structure RecvJson where
  value : Option Json
  parse : Option Parse

/-- `libjson_recv`; `beyond` is what stands in memory behind the buffer. -/
def libjsonRecv (tokener : Tokener) (o : ByteOrder) (answers : List ReadAns) (beyond : Bytes)
    (stream : Bytes) : RecvJson :=
  match (netRecvBuf o answers stream).buf with
  | none => ⟨none, none⟩
  | some buf =>
    let bytes := tokener.read (buf.contents ++ beyond)
    ⟨tokener.value bytes, some ⟨buf.size.toNat, bytes⟩⟩

/-- The parser, if it is called, reads no byte at or beyond the received length. -/
def SafeParse (r : RecvJson) : Prop :=
  ∀ parse, r.parse = some parse → parse.bytes.length ≤ parse.size

/-- The payload of the frame at the front of a stream. -/
def payload (stream : Bytes) : Bytes := (stream.drop 4).take (ofBe32 (stream.take 4)).toNat

theorem netRecvBuf_payload {o : ByteOrder} {answers : List ReadAns} {stream : Bytes} {buf : Buf}
    (h : (netRecvBuf o answers stream).buf = some buf) : buf.contents = payload stream := by
  obtain ⟨_, -, hspec⟩ := netRecvBuf_spec o answers stream
  obtain ⟨hframe, -⟩ := hspec buf h
  generalize (netRecvBuf o answers stream).stream = rest at hframe
  have hsize : stream.take 4 = be32 buf.size := by
    rw [hframe, frame, List.append_assoc, List.take_left' (be32_length _)]
  have hrest : stream.drop 4 = buf.contents ++ rest := by
    rw [hframe, frame, List.append_assoc, List.drop_left' (be32_length _)]
  rw [payload, hsize, ofBe32_be32, hrest, ← buf.contents_length, List.take_left]

/-- **Receiving is safe**, whatever stands behind the buffer, exactly if the frame does not arrive
in full, or its payload has a NUL or a place where the parser stops by itself. -/
theorem libjsonRecv_safe_iff (tokener : Tokener) (o : ByteOrder) (answers : List ReadAns)
    (stream : Bytes) :
    (∀ beyond, SafeParse (libjsonRecv tokener o answers beyond stream)) ↔
      (netRecvBuf o answers stream).buf = none ∨ tokener.Terminates (payload stream) := by
  unfold libjsonRecv SafeParse
  cases hrecv : (netRecvBuf o answers stream).buf with
  | none => simp
  | some buf =>
    rw [← netRecvBuf_payload hrecv, ← read_length_iff]
    simp only [Option.some.injEq, forall_eq', reduceCtorEq, false_or, buf.contents_length]

/-- A parser of the empty array: behind `[` it goes on. -/
def bracketTokener : Tokener where
  stops bytes := bytes ≠ [91]
  value bytes := if bytes = [91, 93] then some (.array []) else none

/-- A frame with the payload `[`, and an empty frame: a value is made of bytes behind the
buffer. -/
theorem libjsonRecv_unsafe :
    (libjsonRecv bracketTokener .big [] [93] [0, 0, 0, 1, 91]).value = some (.array []) ∧
      ¬ SafeParse (libjsonRecv bracketTokener .big [] [93] [0, 0, 0, 1, 91]) ∧
      (libjsonRecv bracketTokener .big [] [91, 93] [0, 0, 0, 0]).value = some (.array []) ∧
      ¬ SafeParse (libjsonRecv bracketTokener .big [] [91, 93] [0, 0, 0, 0]) := by
  refine ⟨rfl, fun hsafe => ?_, rfl, fun hsafe => ?_⟩
  · exact absurd (hsafe ⟨1, [91, 93]⟩ rfl) (by decide)
  · exact absurd (hsafe ⟨0, [91, 93]⟩ rfl) (by decide)

/-! ## Sending -/

/-- What the other end makes of a text and its NUL. -/
def parseText (tokener : Tokener) (text : CStr) : Option Json :=
  tokener.value (tokener.read text.memory)

/-- The text and its NUL fit into a frame. -/
def Fits (text : CStr) : Prop := text.length + 1 < 4294967296

instance (text : CStr) : Decidable (Fits text) := inferInstanceAs (Decidable (_ < _))

/-- **The contract**: when sending succeeds, what is on the wire is one frame whose length is that
of its payload and whose payload is the text and its NUL, and whoever receives it gets the value
back; a text that fits into no frame is refused, and nothing is written. -/
structure SendContract (toText : Json → CStr) (tokener : Tokener) (obj : Json) (w : Written) :
    Prop where
  whole : w.ok = true → ∃ size : UInt32, w.bytes = be32 size ++ (toText obj).memory ∧
    size.toNat = (toText obj).memory.length
  received : w.ok = true → ∀ (o : ByteOrder) (reads : List Nat) (beyond after : Bytes),
    (libjsonRecv tokener o (successful .gave reads) beyond (w.bytes ++ after)).value = some obj
  refused : ¬ Fits (toText obj) → w.ok = false ∧ w.bytes = []

theorem bufCreateFromString_fits {text : CStr} (h : Fits text) :
    (bufCreateFromString text).size.toNat = text.memory.length ∧
      (bufCreateFromString text).contents = text.memory := by
  have hsize : (bufCreateFromString text).size.toNat = text.memory.length := by
    rw [bufCreateFromString, UInt32.toNat_ofNat', CStr.memory_length]
    exact Nat.mod_eq_of_lt h
  refine ⟨hsize, ?_⟩
  rw [Buf.contents, hsize]
  exact List.take_length

theorem libjsonRecv_frame (tokener : Tokener) {text : CStr} (h : Fits text) (o : ByteOrder)
    {answers : List ReadAns} (hanswers : .fail ∉ answers) (beyond after : Bytes) :
    (libjsonRecv tokener o answers beyond (frame (bufCreateFromString text) ++ after)).value =
      parseText tokener text := by
  obtain ⟨buf, answers', hrecv, hcontents, -⟩ :=
    netRecvBuf_frame o hanswers (bufCreateFromString text) after
  have hread : tokener.read (text.memory ++ beyond) = tokener.read text.memory :=
    read_append (terminates_of_nul (by simp [CStr.memory])) beyond
  rw [libjsonRecv, hrecv]
  simp only [hcontents, (bufCreateFromString_fits h).2, hread, parseText]

theorem netSendBuf_nothing_iff (o : ByteOrder) (answers : List WriteAns) (buf : Buf) :
    ((netSendBuf o answers buf).ok = false ∧ (netSendBuf o answers buf).bytes = []) ↔
      answers.head? = some .fail := by
  have hne : be32 buf.size ≠ [] := by
    intro h
    cases h
  have hnil : (writeAll answers (be32 buf.size)).bytes = [] ↔ answers.head? = some .fail :=
    writeAll_bytes_eq_nil_iff hne
  simp only [netSendBuf, netSend, store32_htonl]
  split
  · rename_i hok
    have hall := (writeAll_bytes_eq_iff answers (be32 buf.size)).2 hok
    rw [← hnil, hall]
    simp [hne]
  · rename_i hok
    rw [hnil]
    simp [hok]

theorem libjsonSend_whole (toText : Json → CStr) (o : ByteOrder) (answers : List WriteAns)
    {obj : Json} (hok : (libjsonSend toText o answers obj).ok = true) :
    (libjsonSend toText o answers obj).bytes = frame (bufCreateFromString (toText obj)) :=
  (netSendBuf_bytes_eq_iff o answers _).2 hok

/-- **A value is sent as it is, or refused**, exactly if its text fits into a frame with its NUL,
or the first `send` fails. -/
theorem libjsonSend_contract_iff (toText : Json → CStr) (tokener : Tokener) (o : ByteOrder)
    (answers : List WriteAns) (obj : Json)
    (hparse : parseText tokener (toText obj) = some obj) :
    SendContract toText tokener obj (libjsonSend toText o answers obj) ↔
      Fits (toText obj) ∨ answers.head? = some .fail := by
  have hnothing := netSendBuf_nothing_iff o answers (bufCreateFromString (toText obj))
  constructor
  · intro hcontract
    by_cases hfits : Fits (toText obj)
    · exact .inl hfits
    · exact .inr (hnothing.1 (hcontract.refused hfits))
  · rintro (hfits | hfail)
    · obtain ⟨hsize, hcontents⟩ := bufCreateFromString_fits hfits
      refine ⟨fun hok => ⟨_, ?_, hsize⟩, fun hok o' reads beyond after => ?_, fun hnot =>
        absurd hfits hnot⟩
      · rw [libjsonSend_whole toText o answers hok, frame, hcontents]
      · rw [libjsonSend_whole toText o answers hok,
          libjsonRecv_frame tokener hfits o' (fail_not_mem_gave reads), hparse]
    · obtain ⟨hok, hbytes⟩ := hnothing.2 hfail
      have hnot : ¬ (libjsonSend toText o answers obj).ok = true := by
        rw [libjsonSend, hok]
        decide
      exact ⟨fun h => absurd h hnot, fun h => absurd h hnot, fun _ => ⟨hok, hbytes⟩⟩

/-- The text of a string of `n` letters. -/
def quotedText (n : Nat) : CStr where
  bytes := 34 :: List.replicate n 97 ++ [34]
  nulFree := by
    simp only [List.cons_append, List.mem_cons, List.mem_append, List.mem_replicate,
      List.not_mem_nil]
    rintro (h | ⟨-, h⟩ | h | h) <;> cases h

theorem quotedText_length (n : Nat) : (quotedText n).length = n + 2 := by
  simp [quotedText, CStr.length]

/-- The text of a string without special characters. -/
def stringText : Json → CStr
  | .string s => quotedText s.length
  | _ => quotedText 0

/-- The parser of these texts: it stops behind the second quote. -/
def stringTokener : Tokener where
  stops bytes := 2 ≤ bytes.length ∧ bytes.getLast? = some 34
  value bytes := some (.string (bytes.drop 1).dropLast)

/-- A string of 2^32 - 3 letters. -/
def longString : Json := .string (List.replicate 4294967293 97)

theorem stringText_longString : stringText longString = quotedText 4294967293 := by
  rw [longString, stringText, List.length_replicate]

/-- A text that fits into no frame: its length and its NUL's are cut to 0, an empty frame is sent,
and that is a success. -/
theorem libjsonSend_truncates :
    (libjsonSend stringText .little [] longString).ok = true ∧
      (libjsonSend stringText .little [] longString).bytes = be32 0 ∧
      ¬ SendContract stringText stringTokener longString
        (libjsonSend stringText .little [] longString) := by
  have hlength : (stringText longString).length = 4294967295 := by
    rw [stringText_longString, quotedText_length]
  have hok : (libjsonSend stringText .little [] longString).ok = true :=
    netSendBuf_ok .little List.not_mem_nil _
  have hsize : (bufCreateFromString (stringText longString)).size = 0 := by
    have hcut : UInt32.ofNat (4294967295 + 1) = 0 := by decide
    exact (congrArg (fun n => UInt32.ofNat (n + 1)) hlength).trans hcut
  have hbytes : (libjsonSend stringText .little [] longString).bytes = be32 0 := by
    rw [libjsonSend_whole stringText .little [] hok, frame, Buf.contents, hsize]
    rfl
  refine ⟨hok, hbytes, fun hcontract => ?_⟩
  have hfits : ¬ Fits (stringText longString) := by
    rw [Fits, hlength]
    decide
  rw [(hcontract.refused hfits).1] at hok
  cases hok

/-- A string of one letter is sent as it is, in two pieces. -/
theorem libjsonSend_letter :
    SendContract stringText stringTokener (.string [97])
      (libjsonSend stringText .little [.took 0, .took 9] (.string [97])) :=
  (libjsonSend_contract_iff stringText stringTokener .little [.took 0, .took 9] (.string [97])
    rfl).2 (.inl (by decide))

end Cimple.Messages
