import Mathlib.Tactic.SplitIfs
import VirtualRsp.Foundations.Framing
import VirtualRsp.Foundations.Loop
import VirtualRsp.Foundations.Memory

/-!
# Lines on the socket

Both ends of the socket between the LPA and the card read lines with the same loop: look for a
newline in the buffer; if there is none, read more, unless the buffer is full. The daemon's loop is
`recvLine` and the driver's `socketRecvLine`.

A round of the loop leaves the stream of unread bytes as it is, so a call returns what the stream
alone determines (`recvLine_refines`), and on lines that fit it returns the lines
(`lines_independent_of_pieces`).
-/

namespace VirtualRsp.Protocol

open Framing

/-- The character that ends a line. -/
def newline : UInt8 := 10

/-- The bytes received but not yet returned, and the pieces the socket will still deliver. -/
structure LineReader where
  buffer : Bytes
  socket : List Bytes

/-- The bytes not yet returned. -/
def LineReader.stream (r : LineReader) : Bytes := r.buffer ++ r.socket.flatten

/-- One round of the loop: return the first line of the buffer, or fail because the buffer is full
or the socket closed, or read more. -/
def lineBody (bufferSize : ℕ) (r : LineReader) :
    Option (Ctl LineReader (Option Bytes × LineReader)) :=
  match r.buffer.findIdx? (· = newline) with
  | some lineLen =>
    some (.done (some (cstr (r.buffer.take lineLen)),
      { r with buffer := r.buffer.drop (lineLen + 1) }))
  | none =>
    if bufferSize ≤ r.buffer.length then some (.done (none, r))
    else
      match recv (bufferSize - r.buffer.length) r.socket with
      | none | some ([], _) => some (.done (none, r))
      | some (received, socket) => some (.next ⟨r.buffer ++ received, socket⟩)

/-- The loop of both readers; each round that goes on adds to the buffer. -/
def lineLoop (bufferSize : ℕ) (r : LineReader) : Option (Option Bytes × LineReader) :=
  loop (lineBody bufferSize) (bufferSize + 1) r

/-- The daemon's reader. -/
def recvLine (bufferSize : ℕ) (r : LineReader) : Option (Option Bytes × LineReader) :=
  lineLoop bufferSize r

/-- The size of the daemon's receive buffer. -/
def recvBufferSize : ℕ := 8192

/-- The size of the driver's read buffer. -/
def readBufferSize : ℕ := 8192

/-- The driver's reader. -/
def socketRecvLine (r : LineReader) : Option (Option Bytes × LineReader) :=
  lineLoop readBufferSize r

/-- What `k` calls of a reader return. -/
def calls (reader : LineReader → Option (Option Bytes × LineReader)) :
    ℕ → LineReader → Option (List (Option Bytes))
  | 0, _ => some []
  | k + 1, r => do
    let (line, r') ← reader r
    (line :: ·) <$> calls reader k r'

/-! ## One call -/

/-- The buffer does not overflow, and no read returns nothing while the connection is open. -/
structure LineReader.Ok (bufferSize : ℕ) (r : LineReader) : Prop where
  fits : r.buffer.length ≤ bufferSize
  open_ : ∀ piece ∈ r.socket, piece ≠ []

/-- A reader's answer, and what is left of the stream, as the stream determines them. -/
def Answers (bufferSize : ℕ) (stream : Bytes) (line : Option Bytes) (r' : LineReader) : Prop :=
  r'.Ok bufferSize ∧ line = (nextFrame newline bufferSize stream).1.map cstr ∧
    r'.stream = (nextFrame newline bufferSize stream).2

variable {bufferSize : ℕ} {r : LineReader}

/-- A newline in the buffer ends the first line of the stream. -/
theorem answers_of_newline (hr : r.Ok bufferSize) {i : ℕ}
    (hi : r.buffer.findIdx? (· = newline) = some i) :
    Answers bufferSize r.stream (some (cstr (r.buffer.take i)))
      { r with buffer := r.buffer.drop (i + 1) } := by
  have hlt : i < r.buffer.length := (List.findIdx?_eq_some_iff_getElem.1 hi).1
  have hfits := hr.fits
  have hidx : (r.stream.take bufferSize).findIdx? (· = newline) = some i := by
    rw [LineReader.stream, List.take_append, List.take_of_length_le hr.fits,
      List.findIdx?_append, hi, Option.some_or]
  have hnext : nextFrame newline bufferSize r.stream =
      (some (r.stream.take i), r.stream.drop (i + 1)) := by
    rw [nextFrame, hidx]
  refine ⟨⟨?_, hr.open_⟩, ?_, ?_⟩
  · rw [List.length_drop]
    omega
  · rw [hnext, Option.map_some, LineReader.stream, List.take_append_of_le_length (by omega)]
  · rw [hnext]
    exact (List.drop_append_of_le_length (by omega)).symm

/-- Without a newline in sight the reader fails and keeps the stream. -/
theorem answers_none (hr : r.Ok bufferSize) (hbuf : r.buffer.findIdx? (· = newline) = none)
    (hend : r.buffer.length = bufferSize ∨ r.socket = []) :
    Answers bufferSize r.stream none r := by
  have htake : r.stream.take bufferSize = r.buffer := by
    rcases hend with hlen | hs
    · rw [LineReader.stream, ← hlen, List.take_left]
    · rw [LineReader.stream, hs, List.flatten_nil, List.append_nil, List.take_of_length_le hr.fits]
  have hnext : nextFrame newline bufferSize r.stream = (none, r.stream) := by
    rw [nextFrame, htake, hbuf]
  exact ⟨hr, by rw [hnext]; rfl, by rw [hnext]⟩

/-- **A round** either answers as the stream determines, or goes on with the same stream and more
of it in the buffer. -/
theorem lineBody_spec (hr : r.Ok bufferSize) :
    (∃ line r', lineBody bufferSize r = some (.done (line, r')) ∧
      Answers bufferSize r.stream line r') ∨
    ∃ r' : LineReader, lineBody bufferSize r = some (.next r') ∧ r'.Ok bufferSize ∧
      r'.stream = r.stream ∧ r.buffer.length < r'.buffer.length := by
  cases hbuf : r.buffer.findIdx? (· = newline) with
  | some i => exact .inl ⟨_, _, by rw [lineBody, hbuf], answers_of_newline hr hbuf⟩
  | none =>
    have hfits := hr.fits
    by_cases hfull : bufferSize ≤ r.buffer.length
    · exact .inl ⟨_, _, by rw [lineBody, hbuf]; exact if_pos hfull,
        answers_none hr hbuf (.inl (by omega))⟩
    cases hrecv : recv (bufferSize - r.buffer.length) r.socket with
    | none =>
      refine .inl ⟨none, r, ?_, answers_none hr hbuf (.inr (recv_eq_none.1 hrecv))⟩
      simp only [lineBody, hbuf, if_neg hfull, hrecv]
    | some delivered =>
      obtain ⟨received, socket⟩ := delivered
      obtain ⟨hflat, hlen⟩ := recv_flatten hrecv
      obtain ⟨hne, hopen⟩ := recv_ne_nil (by omega) hr.open_ hrecv
      have hpos := List.length_pos_of_ne_nil hne
      refine .inr ⟨⟨r.buffer ++ received, socket⟩, ?_, ⟨?_, hopen⟩, ?_, ?_⟩
      · cases received with
        | nil => exact absurd rfl hne
        | cons => simp only [lineBody, hbuf, if_neg hfull, hrecv]
      · rw [List.length_append]
        omega
      · rw [LineReader.stream, LineReader.stream, ← hflat, List.append_assoc]
      · rw [List.length_append]
        omega

/-- **A call returns**, and the stream alone determines its answer. -/
theorem lineLoop_refines (hr : r.Ok bufferSize) :
    ∃ line r', lineLoop bufferSize r = some (line, r') ∧ Answers bufferSize r.stream line r' := by
  have key : ∀ n (r : LineReader), r.Ok bufferSize → bufferSize - r.buffer.length < n →
      ∃ line r', loop (lineBody bufferSize) n r = some (line, r') ∧
        Answers bufferSize r.stream line r' := by
    intro n
    induction n with
    | zero => intro r _ hn; omega
    | succ n ih =>
      intro r hr hn
      obtain ⟨line, r', hb, ha⟩ | ⟨r', hb, hr', hs, hlt⟩ := lineBody_spec hr
      · exact ⟨line, r', loop_done hb n, ha⟩
      · have hfits' := hr'.fits
        rw [loop_next hb, ← hs]
        exact ih r' hr' (by omega)
  exact key _ r hr (by omega)

/-- A line that fits is returned, and the rest of the stream is kept. -/
theorem lineLoop_fits (hr : r.Ok bufferSize) {line rest : Bytes} (hnl : newline ∉ line)
    (h0 : 0 ∉ line) (hlen : line.length < bufferSize) (hs : r.stream = line ++ newline :: rest) :
    ∃ r', lineLoop bufferSize r = some (some line, r') ∧ r'.Ok bufferSize ∧ r'.stream = rest := by
  obtain ⟨answer, r', hcall, hr', rfl, hrest⟩ := lineLoop_refines hr
  have hnext : nextFrame newline bufferSize r.stream = (some line, rest) := by
    rw [hs]
    exact nextFrame_cons hnl hlen rest
  rw [hnext] at hcall hrest
  rw [Option.map_some, cstr_eq_self h0] at hcall
  exact ⟨r', hcall, hr', hrest⟩

/-- A line that does not fit is a failure. -/
theorem lineLoop_long (hr : r.Ok bufferSize) {line rest : Bytes} (hnl : newline ∉ line)
    (hlen : bufferSize ≤ line.length) (hs : r.stream = line ++ newline :: rest) :
    ∃ r', lineLoop bufferSize r = some (none, r') := by
  obtain ⟨answer, r', hcall, hr', rfl, hrest⟩ := lineLoop_refines hr
  have htake : r.stream.take bufferSize = line.take bufferSize := by
    rw [hs, List.take_append_of_le_length hlen]
  have hnext : nextFrame newline bufferSize r.stream = (none, r.stream) :=
    nextFrame_none (by rw [htake]; exact fun h => hnl (List.mem_of_mem_take h))
  rw [hnext] at hcall
  exact ⟨r', hcall⟩

/-! ## Any number of calls -/

/-- **Any number of calls** return what the stream alone determines. -/
theorem calls_refines (hr : r.Ok bufferSize) (k : ℕ) :
    calls (lineLoop bufferSize) k r =
      some ((nextFrames newline bufferSize k r.stream).map (Option.map cstr)) := by
  induction k generalizing r with
  | zero => rfl
  | succ k ih =>
    obtain ⟨line, r', hcall, hr', hline, hstream⟩ := lineLoop_refines hr
    simp [calls, hcall, ih hr', nextFrames, hline, hstream]

/-- **Line framing is independent of how the transport splits the stream.** Both readers return the
lines of the stream in order, and after them they fail as long as no newline comes within the size
of the buffer: at the end of the stream, or at a line that does not fit. -/
theorem lines_independent_of_pieces {lines : List Bytes} {tail : Bytes}
    (hlines : ∀ line ∈ lines, newline ∉ line ∧ 0 ∉ line ∧ line.length ≤ 8191)
    (htail : newline ∉ tail.take 8192) {pieces : List Bytes}
    (hpieces : ∀ piece ∈ pieces, piece ≠ [])
    (hstream : pieces.flatten = frames newline lines ++ tail) (m : ℕ) :
    calls (recvLine recvBufferSize) (lines.length + m) ⟨[], pieces⟩ =
        some (lines.map some ++ List.replicate m none) ∧
      calls socketRecvLine (lines.length + m) ⟨[], pieces⟩ =
        some (lines.map some ++ List.replicate m none) := by
  have hr : LineReader.Ok 8192 ⟨[], pieces⟩ := ⟨Nat.zero_le _, hpieces⟩
  have hframes : nextFrames newline 8192 (lines.length + m) pieces.flatten =
      lines.map some ++ List.replicate m none := by
    rw [hstream]
    refine nextFrames_frames (fun line hl => ⟨(hlines line hl).1, ?_⟩) htail m
    have := (hlines line hl).2.2
    omega
  have hcstr : (lines.map some).map (Option.map cstr) = lines.map some := by
    rw [List.map_map]
    refine List.map_congr_left fun line hl => ?_
    simp [cstr_eq_self (hlines line hl).2.1]
  have hcalls : calls (lineLoop 8192) (lines.length + m) ⟨[], pieces⟩ =
      some (lines.map some ++ List.replicate m none) := by
    rw [calls_refines hr, LineReader.stream, List.nil_append, hframes, List.map_append, hcstr]
    simp
  exact ⟨hcalls, hcalls⟩

/-- Two lines in three pieces, and a line that is too long. -/
theorem lines_independent_of_pieces_sample :
    calls (recvLine recvBufferSize) 4
        ⟨[], [[97], [98, newline, newline, 99], List.replicate 9000 100]⟩ =
        some [some [97, 98], some [], none, none] ∧
      calls socketRecvLine 4 ⟨[], [[97], [98, newline, newline, 99], List.replicate 9000 100]⟩ =
        some [some [97, 98], some [], none, none] := by
  have hlong : ∀ b ∈ List.replicate 9000 (100 : UInt8), b = 100 := fun b => List.eq_of_mem_replicate
  have hne : List.replicate 9000 (100 : UInt8) ≠ [] := by
    rw [Ne, List.replicate_eq_nil_iff]
    decide
  generalize List.replicate 9000 (100 : UInt8) = long at hlong hne ⊢
  have htail : newline ∉ (99 :: long).take 8192 := by
    intro h
    rcases List.mem_cons.1 (List.mem_of_mem_take h) with h | h
    · exact absurd h (by decide)
    · exact absurd (hlong _ h) (by decide)
  exact @lines_independent_of_pieces [[97, 98], []] _ (by decide) htail _ (by simp [hne])
    (by simp [frames]) 2

end VirtualRsp.Protocol
