import Cimple.Lib.ByteStream

/-!
# Length-prefixed buffers on a stream socket (`buf.c`, `net.c`)

A buffer travels as a frame: its size as a `uint32_t` in network order, then its bytes.

* `netSend`, `netRecv` — the loops around `send` and `read`, over the kernel's answers.
* `netSendBuf`, `netRecvBuf` — one frame out, one frame in.  All failing paths of
  `net_recv_buf` end in `return -1` before `*buf` is assigned, so its result is an `Option`.
* `netSendBufs`, `netRecvBufs` — a list of frames, one call after the other.

Allocations (`malloc(0)` included) succeed here.

Principal results: `netSendBuf_spec`, `netRecvBuf_spec` (one call) and `framing` (a whole
stream of frames, sent and received in any pieces, and a stream cut anywhere).
-/

set_option autoImplicit false

namespace Cimple.Net

open Octets ByteStream

/-! ## Buffers -/

/-- `struct buf`: a size and the memory behind the data pointer, which holds `size` bytes. -/
structure Buf where
  size : UInt32
  data : Bytes
  fits : size.toNat ≤ data.length
  deriving DecidableEq, Repr

/-- The bytes a buffer stands for: `size` of them from the data pointer on. -/
def Buf.contents (buf : Buf) : Bytes := buf.data.take buf.size.toNat

theorem Buf.contents_length (buf : Buf) : buf.contents.length = buf.size.toNat := by
  simp [Buf.contents, buf.fits]

/-- `buf_create_from_string`: the memory of the string, its size cut to 32 bits. -/
def bufCreateFromString (str : CStr) : Buf where
  size := UInt32.ofNat (str.length + 1)
  data := str.memory
  fits := by
    rw [CStr.memory_length, UInt32.toNat_ofNat']
    exact Nat.mod_le _ _

/-- The bytes a buffer is sent as. -/
def frame (buf : Buf) : Bytes := be32 buf.size ++ buf.contents

theorem frame_length (buf : Buf) : (frame buf).length = 4 + buf.size.toNat := by
  simp [frame, Buf.contents_length]

/-! ## Sending -/

/-- `net_send`: `while (sent_total < size)` around `net_send_part`. -/
def netSend (answers : List WriteAns) (buf : Bytes) : Written := writeAll answers buf

/-- `net_send_buf`: the size converted by `htonl`, then the data. -/
def netSendBuf (o : ByteOrder) (answers : List WriteAns) (buf : Buf) : Written :=
  let size := htonl o buf.size
  let w := netSend answers (store32 o size)
  if w.ok then
    let w' := netSend w.answers buf.contents
    ⟨w'.ok, w.bytes ++ w'.bytes, w'.answers⟩
  else w

/-- **What `net_send_buf` has put on the wire**: a prefix of the frame, and all of it exactly
when it returns 0. -/
theorem netSendBuf_spec (o : ByteOrder) (answers : List WriteAns) (buf : Buf) :
    ∃ left, frame buf = (netSendBuf o answers buf).bytes ++ left ∧
      ((netSendBuf o answers buf).ok = true ↔ left = []) := by
  simp only [netSendBuf, netSend, store32_htonl]
  obtain ⟨left, hsize, hok⟩ := writeAll_spec answers (be32 buf.size)
  split
  · rename_i hw
    obtain ⟨left', hdata, hok'⟩ :=
      writeAll_spec (writeAll answers (be32 buf.size)).answers buf.contents
    obtain rfl := hok.1 hw
    refine ⟨left', ?_, hok'⟩
    rw [List.append_nil] at hsize
    rw [List.append_assoc, ← hdata, ← hsize]
    rfl
  · rename_i hw
    refine ⟨left ++ buf.contents, ?_, ?_⟩
    · rw [← List.append_assoc, ← hsize]
      rfl
    · rw [hok, List.append_eq_nil_iff]
      exact ⟨fun h => absurd (hok.2 h) hw, fun h => h.1⟩

theorem netSendBuf_bytes_eq_iff (o : ByteOrder) (answers : List WriteAns) (buf : Buf) :
    (netSendBuf o answers buf).bytes = frame buf ↔ (netSendBuf o answers buf).ok = true := by
  obtain ⟨left, hframe, hok⟩ := netSendBuf_spec o answers buf
  rw [hok]
  constructor
  · intro h
    rw [h] at hframe
    simpa using hframe
  · rintro rfl
    simpa using hframe.symm

theorem netSendBuf_answers (o : ByteOrder) (answers : List WriteAns) (buf : Buf) :
    (netSendBuf o answers buf).answers <:+ answers := by
  unfold netSendBuf netSend
  simp only
  split
  · exact (writeAll_answers _ _).trans (writeAll_answers _ _)
  · exact writeAll_answers _ _

theorem netSendBuf_ok (o : ByteOrder) {answers : List WriteAns} (h : .fail ∉ answers)
    (buf : Buf) : (netSendBuf o answers buf).ok = true := by
  simp only [netSendBuf, netSend, writeAll_ok h, if_true]
  exact writeAll_ok (fun hf => h ((writeAll_answers _ _).subset hf)) _

/-! ## Receiving -/

/-- `net_recv`: `while (read_total < size)` around `read`, then the check of `read_total`. -/
def netRecv (answers : List ReadAns) (size : Nat) (stream : Bytes) : Reading :=
  readExact answers size stream

/-- The outcome of `net_recv_buf`: the buffer, if it returns 0, and what is left of the stream
and of the kernel's answers. -/
structure Received where
  buf : Option Buf
  stream : Bytes
  answers : List ReadAns
  deriving DecidableEq, Repr

/-- `net_recv_buf`: the size, converted by `ntohl`, then that many bytes. -/
def netRecvBuf (o : ByteOrder) (answers : List ReadAns) (stream : Bytes) : Received :=
  let r := netRecv answers 4 stream
  match r.data with
  | none => ⟨none, r.stream, r.answers⟩
  | some m =>
    let size := ntohl o (load32 o m)
    let r' := netRecv r.answers size.toNat r.stream
    match h : r'.data with
    | none => ⟨none, r'.stream, r'.answers⟩
    | some data => ⟨some ⟨size, data, (readExact_some h).2.ge⟩, r'.stream, r'.answers⟩

/-- **What a delivered buffer says about the stream**: a whole frame stood at its front, the
stream is positioned after it, and no read has failed. -/
theorem netRecvBuf_spec (o : ByteOrder) (answers : List ReadAns) (stream : Bytes) :
    ∃ used, answers = used ++ (netRecvBuf o answers stream).answers ∧
      ∀ buf, (netRecvBuf o answers stream).buf = some buf →
        stream = frame buf ++ (netRecvBuf o answers stream).stream ∧ .fail ∉ used := by
  simp only [netRecvBuf, netRecv]
  obtain ⟨used, hans, hsize⟩ := readExact_spec answers 4 stream
  split
  · exact ⟨used, hans, by simp⟩
  · rename_i m hm
    obtain ⟨hs, hm4, hf⟩ := hsize m hm
    obtain ⟨used', hans', hdata⟩ := readExact_spec (readExact answers 4 stream).answers
      (ntohl o (load32 o m)).toNat (readExact answers 4 stream).stream
    have hused : answers = used ++ used' ++ (readExact (readExact answers 4 stream).answers
        (ntohl o (load32 o m)).toNat (readExact answers 4 stream).stream).answers := by
      rw [List.append_assoc, ← hans', ← hans]
    split
    · exact ⟨used ++ used', hused, by simp⟩
    · rename_i data hd
      obtain ⟨hs', hlen, hf'⟩ := hdata data hd
      refine ⟨used ++ used', hused, ?_⟩
      rintro buf ⟨⟩
      refine ⟨?_, by simp [hf, hf']⟩
      have hcontents : data.take (ntohl o (load32 o m)).toNat = data := by
        rw [← hlen, List.take_length]
      simp only [frame, Buf.contents, hcontents]
      rw [ntohl_load32 o hm4, be32_ofBe32 hm4, List.append_assoc]
      rw [ntohl_load32 o hm4] at hs'
      rw [← hs', ← hs]

/-- **A frame at the front of the stream is received as the buffer it was made of.** -/
theorem netRecvBuf_frame (o : ByteOrder) {answers : List ReadAns} (hf : .fail ∉ answers)
    (buf : Buf) (rest : Bytes) :
    ∃ buf' answers', netRecvBuf o answers (frame buf ++ rest) = ⟨some buf', rest, answers'⟩ ∧
      buf'.contents = buf.contents ∧ answers' <:+ answers := by
  obtain ⟨answers₁, hsub₁, hsize⟩ :=
    readExact_append hf (be32 buf.size) (buf.contents ++ rest)
  obtain ⟨answers₂, hsub₂, hdata⟩ :=
    readExact_append (fun h => hf (hsub₁.subset h)) buf.contents rest
  rw [be32_length, ← List.append_assoc] at hsize
  rw [Buf.contents_length] at hdata
  have hw : ntohl o (load32 o (be32 buf.size)) = buf.size := by
    rw [ntohl_load32 o (be32_length _), ofBe32_be32]
  refine ⟨⟨buf.size, buf.contents, buf.contents_length.ge⟩, answers₂, ?_, ?_,
    hsub₂.trans hsub₁⟩
  · simp only [netRecvBuf, netRecv, frame, hsize, hw]
    split
    · rename_i h
      simp only [hsize, hw, hdata, reduceCtorEq] at h
    · rename_i data h
      simp only [hsize, hw, hdata, Option.some.injEq] at h
      simp only [← h, hdata]
  · simp [Buf.contents, List.take_take]

/-! ## A stream of frames -/

/-- One `net_send_buf` for each buffer of a list. -/
def netSendBufs (o : ByteOrder) : List WriteAns → List Buf → Written
  | answers, [] => ⟨true, [], answers⟩
  | answers, buf :: bufs =>
    let w := netSendBuf o answers buf
    let w' := netSendBufs o w.answers bufs
    ⟨w.ok && w'.ok, w.bytes ++ w'.bytes, w'.answers⟩

theorem netSendBufs_ok (o : ByteOrder) (bufs : List Buf) :
    ∀ {answers : List WriteAns}, .fail ∉ answers →
      (netSendBufs o answers bufs).ok = true ∧
        (netSendBufs o answers bufs).bytes = bufs.flatMap frame := by
  induction bufs with
  | nil => intro answers _; exact ⟨rfl, rfl⟩
  | cons buf bufs ih =>
    intro answers hf
    have hok := netSendBuf_ok o hf buf
    obtain ⟨ih₁, ih₂⟩ := ih (fun h => hf ((netSendBuf_answers o answers buf).subset h))
    simp only [netSendBufs, hok, ih₁, ih₂, (netSendBuf_bytes_eq_iff o answers buf).2 hok]
    exact ⟨rfl, rfl⟩

/-- The results of `n` calls of `net_recv_buf`, and what is left of the stream and answers. -/
def netRecvBufs (o : ByteOrder) : Nat → List ReadAns → Bytes →
    List (Option Buf) × Bytes × List ReadAns
  | 0, answers, stream => ([], stream, answers)
  | n + 1, answers, stream =>
    let r := netRecvBuf o answers stream
    let rs := netRecvBufs o n r.answers r.stream
    (r.buf :: rs.1, rs.2)

theorem netRecvBufs_frames (o : ByteOrder) (bufs : List Buf) (rest : Bytes) :
    ∀ {answers : List ReadAns}, .fail ∉ answers →
      (netRecvBufs o bufs.length answers (bufs.flatMap frame ++ rest)).1.map
          (Option.map Buf.contents) = bufs.map (fun buf => some buf.contents) ∧
        (netRecvBufs o bufs.length answers (bufs.flatMap frame ++ rest)).2.1 = rest := by
  induction bufs with
  | nil => intro answers _; exact ⟨rfl, rfl⟩
  | cons buf bufs ih =>
    intro answers hf
    obtain ⟨buf', answers', hr, hc, hsub⟩ :=
      netRecvBuf_frame o hf buf (bufs.flatMap frame ++ rest)
    obtain ⟨ih₁, ih₂⟩ := ih (fun h => hf (hsub.subset h))
    simp only [List.length_cons, List.flatMap_cons, List.append_assoc, netRecvBufs, hr,
      List.map_cons, ih₁, ih₂, Option.map_some, hc, and_self]

/-- The answers of a kernel on which no call fails. -/
def successful {α : Type} (ans : Nat → α) (chunks : List Nat) : List α := chunks.map ans

theorem fail_not_mem_took (chunks : List Nat) :
    WriteAns.fail ∉ successful WriteAns.took chunks := by
  simp [successful]

theorem fail_not_mem_gave (chunks : List Nat) :
    ReadAns.fail ∉ successful ReadAns.gave chunks := by
  simp [successful]

/-- **Framing over a byte stream.**  Whatever pieces the sends and the reads move, the frames of
`bufs` are received as those buffers, byte for byte, and leave the stream at the frames of
`more` that follow; a stream that ends inside a frame, and a read that fails inside one,
deliver no buffer. -/
theorem framing (o o' : ByteOrder) :
    (∀ (bufs more : List Buf) (after : Bytes) (sends reads : List Nat),
      let sent := netSendBufs o (successful .took sends) (bufs ++ more)
      let got := netRecvBufs o' bufs.length (successful .gave reads) (sent.bytes ++ after)
      sent.ok = true ∧
        got.1.map (Option.map Buf.contents) = bufs.map (fun buf => some buf.contents) ∧
        got.2.1 = more.flatMap frame ++ after) ∧
    (∀ (buf : Buf) (answers : List ReadAns) (cut : Nat), cut < (frame buf).length →
      (netRecvBuf o' answers ((frame buf).take cut)).buf = none) ∧
    (∀ (answers used : List ReadAns) (stream : Bytes),
      answers = used ++ (netRecvBuf o' answers stream).answers → .fail ∈ used →
      (netRecvBuf o' answers stream).buf = none) := by
  refine ⟨?_, ?_, ?_⟩
  · intro bufs more after sends reads
    obtain ⟨hok, hbytes⟩ := netSendBufs_ok o (bufs ++ more) (fail_not_mem_took sends)
    refine ⟨hok, ?_⟩
    rw [hbytes, List.flatMap_append, List.append_assoc]
    exact netRecvBufs_frames o' bufs _ (fail_not_mem_gave reads)
  · intro buf answers cut hcut
    cases hr : (netRecvBuf o' answers ((frame buf).take cut)).buf with
    | none => rfl
    | some buf' =>
      obtain ⟨_, _, hbuf⟩ := netRecvBuf_spec o' answers ((frame buf).take cut)
      obtain ⟨hs, _⟩ := hbuf buf' hr
      -- the delivered frame is a prefix of a strict prefix of the frame sent: the size fields
      -- agree, so its length is too large
      have hlen := congrArg List.length hs
      simp only [List.length_take, List.length_append, frame_length] at hlen hcut
      have h4 : be32 buf'.size = be32 buf.size := by
        have htake := congrArg (List.take 4) hs
        rw [List.take_take, Nat.min_eq_left (by omega), frame, frame, List.append_assoc,
          List.take_left' (be32_length _), List.take_left' (be32_length _)] at htake
        exact htake.symm
      have hsize : buf'.size = buf.size := by
        rw [← ofBe32_be32 buf'.size, h4, ofBe32_be32]
      rw [hsize] at hlen
      omega
  · intro answers used stream hans hfail
    cases hr : (netRecvBuf o' answers stream).buf with
    | none => rfl
    | some buf =>
      obtain ⟨used', hans', hbuf⟩ := netRecvBuf_spec o' answers stream
      have hused : used = used' := List.append_cancel_right (hans.symm.trans hans')
      exact absurd (hused ▸ hfail) (hbuf buf hr).2

/-- A three-byte buffer cut inside its data, and a length cut short by a failing read. -/
theorem framing_cut_short :
    (netRecvBuf .big [.gave 0] ((frame ⟨3, [1, 2, 3], by decide⟩).take 5)).buf = none ∧
      (netRecvBuf .big [.gave 0, .fail] [0, 0, 0, 1, 7]).buf = none :=
  ⟨(framing .little .big).2.1 _ _ 5 (by decide),
    (framing .little .big).2.2 _ [.gave 0, .fail] _ (by decide) (by decide)⟩

end Cimple.Net
