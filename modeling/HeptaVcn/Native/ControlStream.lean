import Mathlib.Data.List.TakeWhile
import HeptaVcn.Machine.Play
import HeptaVcn.Machine.Segments
import HeptaVcn.Native.Syscall

/-!
# Integers and strings on the control stream, `tool.h`

Every integer, every length and every string is read with a single `read`, and a shorter
one than asked for is fatal. What was written is therefore read back exactly when TCP
does not cut the stream inside one of them.
-/

namespace HeptaVcn

open Machine

/-- `PATH_MAX` -/
def pathMax : ℕ := 4096

/-- `read_string`: the characters of the buffer before its first NUL. -/
def readString (fd : ℤ) : Program Sys (List UInt8) := do
  let len ← readInt fd
  if (pathMax : ℤ) < len.toInt ∨ len.toInt < 0 then errExit "invalid string length"
  else
    let val ← sys (.read fd len.toNat)
    match val with
    | some bytes =>
      if bytes.length ≠ len.toNat then errExit "unable to read string"
      else pure (bytes.takeWhile (· ≠ 0))
    | none => errExit "unable to read string"

/-- `write_string` for the characters before a NUL. -/
def writeString (fd : ℤ) (val : List UInt8) : Program Sys Unit := do
  let len : CInt := BitVec.ofNat 32 val.length
  writeInt fd len
  let written ← sys (.write fd val)
  if written ≠ len.toInt then errExit "unable to write string"

/-! ## Messages -/

/-- The characters of a string that `write_string` may be given. -/
structure CString where
  chars : List UInt8
  length_le : chars.length ≤ pathMax
  nul_free : 0 ∉ chars

inductive Message where
  | int (v : CInt)
  | string (s : CString)

inductive Kind where
  | int
  | string
  deriving DecidableEq

/-- What a reader is given. -/
inductive Received where
  | int (v : CInt)
  | string (chars : List UInt8)
  deriving DecidableEq

namespace Message

def kind : Message → Kind
  | .int _ => .int
  | .string _ => .string

def received : Message → Received
  | .int v => .int v
  | .string s => .string s.chars

def write (fd : ℤ) : Message → Program Sys Unit
  | .int v => writeInt fd v
  | .string s => writeString fd s.chars

/-- The parts of a message that are read with one `read` each. -/
def units : Message → List (List UInt8)
  | .int v => [intBytes v]
  | .string s => [intBytes (BitVec.ofNat 32 s.chars.length), s.chars]

end Message

/-- The read that matches a message of this kind. -/
def Kind.read (fd : ℤ) : Kind → Program Sys Received
  | .int => do
    let v ← readInt fd
    pure (.int v)
  | .string => do
    let chars ← readString fd
    pure (.string chars)

/-- Write messages one after another. -/
def writeAll (fd : ℤ) : List Message → Program Sys Unit
  | [] => pure ()
  | m :: ms => do
    m.write fd
    writeAll fd ms

/-- Read messages of the given kinds one after another. -/
def readAll (fd : ℤ) : List Kind → Program Sys (List Received)
  | [] => pure []
  | kind :: kinds => do
    let m ← kind.read fd
    let ms ← readAll fd kinds
    pure (m :: ms)

/-! ## The wire -/

/-- One end of the connection: what it has written, and what it is still to read. -/
structure Wire where
  sent : List UInt8
  incoming : Segmented UInt8

/-- A write is taken whole, a read returns at most one piece, and `exit` does not return. -/
def Wire.answers : Answers Sys Wire
  | w, .read _ len => some (some ((w.incoming.read len).1.getD []),
      { w with incoming := (w.incoming.read len).2 })
  | w, .write _ bytes => some ((bytes.length : ℤ), { w with sent := w.sent ++ bytes })
  | w, .log _ => some ((), w)
  | _, _ => none

section Playing

variable {fd : ℤ} {w : Wire}

/-- `ERR_EXIT` ends the process. -/
theorem play_errExit {α : Type} (m : String) (w : Wire) :
    (errExit m : Program Sys α).play Wire.answers w = .stuck (.exit 1) w := rfl

/-- Writing an integer sends its four bytes. -/
theorem play_writeInt (v : CInt) :
    (writeInt fd v).play Wire.answers w = .returned () { w with sent := w.sent ++ intBytes v } :=
  rfl

/-- The length of a string that may be written is not changed by being an `int`. -/
theorem toInt_length (s : CString) :
    (BitVec.ofNat 32 s.chars.length).toInt = s.chars.length := by
  have hle : s.chars.length ≤ 4096 := s.length_le
  rw [BitVec.toInt_eq_toNat_of_lt, BitVec.toNat_ofNat]
  · omega
  · rw [BitVec.toNat_ofNat]
    omega

/-- The length of a C string fits into an `int`, so it is sent unchanged. -/
theorem toNat_length (s : CString) : (BitVec.ofNat 32 s.chars.length).toNat = s.chars.length := by
  have hle : s.chars.length ≤ 4096 := s.length_le
  rw [BitVec.toNat_ofNat]
  omega

/-- A message is written as its parts. -/
theorem play_write (m : Message) : (m.write fd).play Wire.answers w =
    .returned () { w with sent := w.sent ++ m.units.flatten } := by
  cases m with
  | int v => simp [Message.write, Message.units, play_writeInt]
  | string s =>
    have hlength := toInt_length s
    simp only [Message.write, writeString, Program.bind_eq]
    rw [Program.play_bind_returned (play_writeInt _)]
    change Program.play _ (if (s.chars.length : ℤ) ≠ _ then _ else _) _ = _
    rw [if_neg (by simp [hlength])]
    simp [Message.units]

/-- Writing messages one after the other sends their units in order. -/
theorem play_writeAll (ms : List Message) : (writeAll fd ms).play Wire.answers w =
    .returned () { w with sent := w.sent ++ (ms.flatMap Message.units).flatten } := by
  induction ms generalizing w with
  | nil => simp [writeAll]
  | cons m ms ih =>
    simp only [writeAll, Program.bind_eq]
    rw [Program.play_bind_returned (play_write m), ih]
    simp

/-- One read of the whole length of a unit: all of it, or less because a piece ends inside. -/
theorem read_or {u rest : List UInt8} (hflat : w.incoming.flat = u ++ rest) (fd : ℤ) :
    (∃ t : Segmented UInt8, w.incoming.Uncut [u] ∧
      Wire.answers w (.read fd u.length) = some (some u, { w with incoming := t }) ∧
      t.flat = rest ∧ ∀ k, 0 < k → (t.IsCut k ↔ w.incoming.IsCut (u.length + k))) ∨
    (¬w.incoming.Uncut [u] ∧ ∃ b t, b.length ≠ u.length ∧
      Wire.answers w (.read fd u.length) = some (some b, t)) := by
  by_cases huncut : ∀ k, 0 < k → k < u.length → ¬w.incoming.IsCut k
  · obtain ⟨t, hread, hrest, hshift⟩ := w.incoming.read_whole hflat huncut
    refine Or.inl ⟨t, Segmented.uncut_singleton.mpr huncut, ?_, hrest, hshift⟩
    simp [Wire.answers, hread]
  · refine Or.inr ⟨fun h => huncut (Segmented.uncut_singleton.mp h), ?_⟩
    push Not at huncut
    obtain ⟨k, hk, hlt, hcut⟩ := huncut
    obtain ⟨b, hread, hshort⟩ := w.incoming.read_short hk hlt hcut
    exact ⟨b, _, hshort, by simp only [Wire.answers, hread]; rfl⟩

/-- An integer is read if no piece ends inside it, and otherwise the process ends. -/
theorem play_readInt (fd : ℤ) {v : CInt} {rest : List UInt8}
    (hflat : w.incoming.flat = intBytes v ++ rest) :
    (∃ t : Segmented UInt8, w.incoming.Uncut [intBytes v] ∧
      (readInt fd).play Wire.answers w = .returned v { w with incoming := t } ∧
      t.flat = rest ∧ ∀ k, 0 < k → (t.IsCut k ↔ w.incoming.IsCut (4 + k))) ∨
    (¬w.incoming.Uncut [intBytes v] ∧
      ∃ t, (readInt fd).play Wire.answers w = .stuck (.exit 1) t) := by
  rcases read_or hflat fd with ⟨t, huncut, hread, hrest, hshift⟩ | ⟨hcut, b, t, hshort, hread⟩
  · refine Or.inl ⟨t, huncut, ?_, hrest, hshift⟩
    refine (Program.play_call hread).trans ?_
    simp
  · refine Or.inr ⟨hcut, t, ?_⟩
    refine (Program.play_call hread).trans ?_
    change Program.play _ (if b.length ≠ 4 then _ else _) _ = _
    have hne : b.length ≠ 4 := hshort
    rw [if_pos hne, play_errExit]

/-- A string is read if no piece ends inside its length or inside its characters. -/
theorem play_readString (fd : ℤ) {s : CString} {rest : List UInt8}
    (hflat : w.incoming.flat = (Message.string s).units.flatten ++ rest) :
    (∃ t : Segmented UInt8, w.incoming.Uncut (Message.string s).units ∧
      (readString fd).play Wire.answers w = .returned s.chars { w with incoming := t } ∧
      t.flat = rest ∧ ∀ k, 0 < k → (t.IsCut k ↔
        w.incoming.IsCut ((Message.string s).units.flatten.length + k))) ∨
    (¬w.incoming.Uncut (Message.string s).units ∧
      ∃ t, (readString fd).play Wire.answers w = .stuck (.exit 1) t) := by
  have hunits : (Message.string s).units =
      [intBytes (BitVec.ofNat 32 s.chars.length)] ++ [s.chars] := rfl
  have hstream : w.incoming.flat =
      intBytes (BitVec.ofNat 32 s.chars.length) ++ (s.chars ++ rest) := by
    rw [hflat, hunits]
    simp
  unfold readString
  rw [hunits, Program.bind_eq]
  rcases play_readInt fd hstream with
    ⟨t, huncut, hread, hrest, hshift⟩ | ⟨hcut, t, hread⟩
  case inr =>
    refine Or.inr ⟨fun h => hcut fun before u after hunit => ?_, t, Program.play_bind_stuck hread⟩
    exact h before u (after ++ [s.chars]) (by rw [hunit]; simp)
  case inl =>
    have hlength : s.chars.length ≤ pathMax := s.length_le
    have hvalid : ¬((pathMax : ℤ) < (BitVec.ofNat 32 s.chars.length).toInt ∨
        (BitVec.ofNat 32 s.chars.length).toInt < 0) := by
      rw [toInt_length]
      omega
    rw [Program.play_bind_returned hread, if_neg hvalid, toNat_length,
      Segmented.uncut_append hshift]
    rcases read_or (w := { w with incoming := t }) hrest fd with
      ⟨t', huncut', hread', hrest', hshift'⟩ | ⟨hcut', b, t', hshort, hread'⟩
    · refine Or.inl ⟨t', ⟨huncut, huncut'⟩, (Program.play_call hread').trans ?_, hrest', ?_⟩
      · have htext : s.chars.takeWhile (· ≠ 0) = s.chars := by
          rw [List.takeWhile_eq_self_iff]
          intro b hb
          simpa using fun hzero : b = 0 => s.nul_free (hzero ▸ hb)
        simpa using htext
      · intro k hk
        have hlen : ([intBytes (BitVec.ofNat 32 s.chars.length)] ++ [s.chars]).flatten.length + k =
            4 + (s.chars.length + k) := by
          simp [Nat.add_assoc]
        rw [hlen, ← hshift _ (by omega)]
        exact hshift' k hk
    · refine Or.inr ⟨fun h => hcut' h.2, t', (Program.play_call hread').trans ?_⟩
      change Program.play _ (if b.length ≠ s.chars.length then _ else _) _ = _
      rw [if_pos hshort, play_errExit]

/-- The matching read returns a message if no piece ends inside one of its parts. -/
theorem play_read (fd : ℤ) {m : Message} {rest : List UInt8}
    (hflat : w.incoming.flat = m.units.flatten ++ rest) :
    (∃ t : Segmented UInt8, w.incoming.Uncut m.units ∧
      (m.kind.read fd).play Wire.answers w = .returned m.received { w with incoming := t } ∧
      t.flat = rest ∧
      ∀ k, 0 < k → (t.IsCut k ↔ w.incoming.IsCut (m.units.flatten.length + k))) ∨
    (¬w.incoming.Uncut m.units ∧
      ∃ t, (m.kind.read fd).play Wire.answers w = .stuck (.exit 1) t) := by
  cases m with
  | int v =>
    rcases play_readInt fd (v := v) (by simpa [Message.units] using hflat) with
      ⟨t, huncut, hread, hrest, hshift⟩ | ⟨hcut, t, hread⟩
    · refine Or.inl ⟨t, huncut, ?_, hrest, by simpa [Message.units] using hshift⟩
      exact Program.play_bind_returned hread
    · exact Or.inr ⟨hcut, t, Program.play_bind_stuck hread⟩
  | string s =>
    rcases play_readString fd hflat with
      ⟨t, huncut, hread, hrest, hshift⟩ | ⟨hcut, t, hread⟩
    · refine Or.inl ⟨t, huncut, ?_, hrest, hshift⟩
      exact Program.play_bind_returned hread
    · exact Or.inr ⟨hcut, t, Program.play_bind_stuck hread⟩

/-- The matching reads return the messages, and leave what follows them, exactly when no
piece ends inside a part of one. -/
theorem play_readAll (ms : List Message) {rest : List UInt8}
    (hflat : w.incoming.flat = (ms.flatMap Message.units).flatten ++ rest) :
    (∃ t, (readAll fd (ms.map Message.kind)).play Wire.answers w =
        .returned (ms.map Message.received) t ∧ t.incoming.flat = rest) ↔
      w.incoming.Uncut (ms.flatMap Message.units) := by
  induction ms generalizing w with
  | nil =>
    refine iff_of_true ⟨w, rfl, hflat⟩ ?_
    rintro before u after hunits
    simp at hunits
  | cons m ms ih =>
    have hstream : w.incoming.flat =
        m.units.flatten ++ ((ms.flatMap Message.units).flatten ++ rest) := by
      rw [hflat]
      simp
    simp only [List.map_cons, List.flatMap_cons, readAll, Program.bind_eq]
    rcases play_read fd hstream with ⟨t, huncut, hread, hrest, hshift⟩ | ⟨hcut, t, hread⟩
    · rw [Program.play_bind_returned hread, Segmented.uncut_append hshift, and_iff_right huncut]
      rw [← ih (w := { w with incoming := t }) hrest]
      cases hplay : (readAll fd (ms.map Message.kind)).play Wire.answers
          { w with incoming := t } with
      | returned received t' =>
        rw [Program.play_bind_returned hplay]
        simp
      | stuck op t' =>
        rw [Program.play_bind_stuck hplay]
        simp
    · rw [Program.play_bind_stuck hread]
      refine iff_of_false (by simp) fun h => hcut ?_
      intro before u after hunits
      exact h before u (after ++ ms.flatMap Message.units) (by rw [hunits]; simp)

end Playing

/-- The messages written at one end are read back at the other, with nothing left, when they
arrive in these pieces. -/
def ReadBack (fd : ℤ) (ms : List Message) (incoming : Segmented UInt8) : Prop :=
  ∃ t, (readAll fd (ms.map Message.kind)).play Wire.answers ⟨[], incoming⟩ =
    .returned (ms.map Message.received) t ∧ t.incoming.flat = []

/-- What the messages were written as arrives, in whatever pieces. -/
def Arrives (fd : ℤ) (ms : List Message) (incoming : Segmented UInt8) : Prop :=
  ∃ t, (writeAll fd ms).play Wire.answers ⟨[], ⟨[], by simp⟩⟩ = .returned () t ∧
    t.sent = incoming.flat

/-- Messages are read back exactly when no piece ends inside an integer, inside the length of
a string or inside its characters. -/
theorem readBack_iff {fd fd' : ℤ} {ms : List Message} {incoming : Segmented UInt8}
    (harrives : Arrives fd ms incoming) :
    ReadBack fd' ms incoming ↔ incoming.Uncut (ms.flatMap Message.units) := by
  obtain ⟨t, hwrite, hsent⟩ := harrives
  rw [play_writeAll] at hwrite
  obtain ⟨_, rfl⟩ := Outcome.returned.inj hwrite
  apply play_readAll
  rw [List.append_nil]
  exact hsent.symm

/-- Each write arrives as one piece. -/
theorem readBack_wholeWrites :
    ReadBack 3 [.int 7, .string ⟨[104, 105], by decide, by decide⟩]
      ⟨[[7, 0, 0, 0], [2, 0, 0, 0], [104, 105]], by decide⟩ :=
  (@readBack_iff 4 3 _ _ ⟨_, rfl, rfl⟩).mpr (Segmented.uncut_pieces _)

/-- An integer that arrives in two pieces ends the reader's process. -/
theorem not_readBack_cutInteger :
    Arrives 4 [.int 7] ⟨[[7], [0, 0, 0]], by decide⟩ ∧
      ¬ReadBack 3 [.int 7] ⟨[[7], [0, 0, 0]], by decide⟩ := by
  refine ⟨⟨_, rfl, rfl⟩, ?_⟩
  rintro ⟨t, h, _⟩
  cases h

end HeptaVcn
