import HeptaVcn.Machine.Run

/-!
# Two byte buffers in a row

Messages are appended to a first buffer, handed over in bulk to a second one,
and flushed from there in bulk. Nothing marks where a message ends, so what a
flush carries is decided by the order of the steps. This file says exactly what
survives: always the order of the bytes and whole messages per flush, and the
message boundaries exactly when no buffer is appended to while it is not empty.
-/

namespace Machine

variable {β : Type*}

/-- The two buffers: `source` is filled by arriving messages, `sink` is flushed. -/
structure Pipeline (β : Type*) where
  source : List β
  sink : List β

namespace Pipeline

/-- What can happen to the two buffers. -/
inductive Label (β : Type*) where
  | put (message : List β)
  | shift
  | flush (bytes : List β)

/-- A message put in is not empty, a shift empties the first buffer into the
second, and a flush carries all that the second buffer holds. -/
def step [DecidableEq β] (p : Pipeline β) : Label β → Option (Pipeline β)
  | .put m => if m ≠ [] then some { p with source := p.source ++ m } else none
  | .shift => some ⟨[], p.sink ++ p.source⟩
  | .flush bytes => if bytes = p.sink ∧ bytes ≠ [] then some { p with sink := [] } else none

/-- The pipeline before its first message. -/
def empty : Pipeline β := ⟨[], []⟩

/-- The messages put in during a run. -/
def puts : List (Label β) → List (List β) :=
  List.filterMap fun | .put m => some m | _ => none

/-- What the flushes of a run carried. -/
def flushes : List (Label β) → List (List β) :=
  List.filterMap fun | .flush bytes => some bytes | _ => none

/-- The messages put in along two traces, one after the other. -/
@[simp] theorem puts_append (tr₁ tr₂ : List (Label β)) :
    puts (tr₁ ++ tr₂) = puts tr₁ ++ puts tr₂ := List.filterMap_append

/-- The pieces taken out along two traces, one after the other. -/
@[simp] theorem flushes_append (tr₁ tr₂ : List (Label β)) :
    flushes (tr₁ ++ tr₂) = flushes tr₁ ++ flushes tr₂ := List.filterMap_append

/-- Each step appends only to an empty buffer. -/
def AppendsToEmpty (p : Pipeline β) : Label β → Prop
  | .put _ => p.source = []
  | .shift => p.sink = [] ∨ p.source = []
  | .flush _ => True

/-- The messages a buffer holds when it holds at most one. -/
def chunk (bytes : List β) : List (List β) := if bytes = [] then [] else [bytes]

/-- Nothing waiting is no piece. -/
@[simp] theorem chunk_nil : chunk ([] : List β) = [] := rfl

/-- Bytes that wait are taken as one piece. -/
theorem chunk_of_ne_nil {bytes : List β} (h : bytes ≠ []) : chunk bytes = [bytes] := if_neg h

/-- The bytes of some messages of the kind `S`, one after another. -/
def ConcatOf (S : List β → Prop) (bytes : List β) : Prop :=
  ∃ messages : List (List β), bytes = messages.flatten ∧ ∀ m ∈ messages, S m

/-- No message at all. -/
theorem ConcatOf.nil (S : List β → Prop) : ConcatOf S [] := ⟨[], rfl, by simp⟩

/-- One message. -/
theorem ConcatOf.single {S : List β → Prop} {m : List β} (hm : S m) : ConcatOf S m :=
  ⟨[m], by simp, by simpa using hm⟩

/-- Concatenations of messages can be joined. -/
theorem ConcatOf.append {S : List β → Prop} {bytes bytes' : List β} (h : ConcatOf S bytes)
    (h' : ConcatOf S bytes') : ConcatOf S (bytes ++ bytes') := by
  obtain ⟨ms, rfl, hms⟩ := h
  obtain ⟨ms', rfl, hms'⟩ := h'
  refine ⟨ms ++ ms', by simp, fun m hm => ?_⟩
  rcases List.mem_append.mp hm with hm | hm
  · exact hms m hm
  · exact hms' m hm

/-- A concatenation of some messages is one of any larger set of messages. -/
theorem ConcatOf.mono {S S' : List β → Prop} (himp : ∀ m, S m → S' m) {bytes : List β}
    (h : ConcatOf S bytes) : ConcatOf S' bytes := by
  obtain ⟨ms, rfl, hms⟩ := h
  exact ⟨ms, rfl, fun m hm => himp m (hms m hm)⟩

/-- Pieces that are made of messages make up something that is made of messages. -/
theorem ConcatOf.bind {S S' : List β → Prop} {bytes : List β} (h : ConcatOf S bytes)
    (hS : ∀ m, S m → ConcatOf S' m) : ConcatOf S' bytes := by
  obtain ⟨ms, rfl, hms⟩ := h
  induction ms with
  | nil => exact ConcatOf.nil S'
  | cons m ms ih =>
    obtain ⟨hm, hms⟩ := List.forall_mem_cons.mp hms
    rw [List.flatten_cons]
    exact (hS m hm).append (ih hms)

/-- Both buffers hold nothing but messages of the kind `S`. -/
def MadeOf (S : List β → Prop) (p : Pipeline β) : Prop := ConcatOf S p.source ∧ ConcatOf S p.sink

variable [DecidableEq β] {p q : Pipeline β} {tr : List (Label β)}

/-- Putting in appends a nonempty message to the source buffer. -/
theorem step_put {m : List β} :
    step p (.put m) = some q ↔ m ≠ [] ∧ q = ⟨p.source ++ m, p.sink⟩ := by
  simp only [step]
  split <;> simp_all [eq_comm]

/-- Shifting moves all of the source buffer to the end of the sink buffer. -/
theorem step_shift : step p .shift = some q ↔ q = ⟨[], p.sink ++ p.source⟩ := by
  simp only [step, Option.some.injEq, eq_comm]

/-- Flushing takes the whole sink buffer, which must not be empty. -/
theorem step_flush {bytes : List β} :
    step p (.flush bytes) = some q ↔
      (bytes = p.sink ∧ bytes ≠ []) ∧ q = ⟨p.source, []⟩ := by
  simp only [step]
  split
  case isTrue h => simp only [Option.some.injEq, and_iff_right h, eq_comm]
  case isFalse h => simp only [reduceCtorEq, h, false_and]

/-- No empty message is put in. -/
theorem ne_nil_of_mem_puts (hrun : run step p tr = some q) {m : List β} (hm : m ∈ puts tr) :
    m ≠ [] := by
  refine history (I := fun tr _ => ∀ m ∈ puts tr, m ≠ []) ?_ (by simp [puts]) hrun m hm
  intro tr p l q hI hstep m hm
  rw [puts_append, List.mem_append] at hm
  rcases hm with hm | hm
  · exact hI m hm
  · cases l with
    | put m' =>
      obtain rfl : m = m' := by simpa [puts] using hm
      exact (step_put.mp hstep).1
    | shift => simp [puts] at hm
    | flush bytes => simp [puts] at hm

/-- How a pipeline's messages are divided up after the labels `tr`: each flush
carried a group of them, the second buffer holds the next ones, the first
buffer the rest. -/
def Divided (tr : List (Label β)) (p : Pipeline β) (flushed : List (List (List β)))
    (sinking waiting : List (List β)) : Prop :=
  flushes tr = flushed.map List.flatten ∧ p.sink = sinking.flatten ∧
    p.source = waiting.flatten ∧ puts tr = flushed.flatten ++ sinking ++ waiting

/-- Every flush carries whole messages, one after another in the order they were
put in; only the division into messages may be lost. -/
theorem exists_divided (hrun : run step empty tr = some p) :
    ∃ flushed sinking waiting, Divided tr p flushed sinking waiting := by
  refine history (I := fun tr p => ∃ flushed sinking waiting, Divided tr p flushed sinking waiting)
    ?_ ⟨[], [], [], by simp [Divided, puts, flushes, empty]⟩ hrun
  rintro tr p l q ⟨flushed, sinking, waiting, hflush, hsink, hsource, hputs⟩ hstep
  cases l with
  | put m =>
    obtain ⟨_, rfl⟩ := step_put.mp hstep
    refine ⟨flushed, sinking, waiting ++ [m], ?_, hsink, by simp [hsource], ?_⟩
    · simpa [flushes] using hflush
    · rw [puts_append, hputs]
      simp [puts]
  | shift =>
    obtain rfl := step_shift.mp hstep
    refine ⟨flushed, sinking ++ waiting, [], ?_, by simp [hsink, hsource], rfl, ?_⟩
    · simpa [flushes] using hflush
    · rw [puts_append, hputs]
      simp [puts]
  | flush bytes =>
    obtain ⟨⟨rfl, _⟩, rfl⟩ := step_flush.mp hstep
    refine ⟨flushed ++ [sinking], [], waiting, ?_, rfl, hsource, ?_⟩
    · rw [flushes_append, hflush]
      simp [flushes, hsink]
    · rw [puts_append, hputs]
      simp [puts]

/-- No byte is lost, invented or moved past another one. -/
theorem conservation (hrun : run step empty tr = some p) :
    (puts tr).flatten = (flushes tr).flatten ++ p.sink ++ p.source := by
  obtain ⟨flushed, sinking, waiting, hflush, hsink, hsource, hputs⟩ := exists_divided hrun
  rw [hputs, hflush, hsink, hsource]
  simp [List.flatten_flatten]

/-- Appending only to empty buffers keeps the messages apart: the flushes so far,
then what the second buffer holds, then what the first one holds, are exactly
the messages put in. -/
theorem puts_eq_of_appendsToEmpty (hmeets : Meets step AppendsToEmpty empty tr)
    (hrun : run step empty tr = some p) :
    puts tr = flushes tr ++ chunk p.sink ++ chunk p.source := by
  refine history_of_meets (I := fun tr p => puts tr = flushes tr ++ chunk p.sink ++ chunk p.source)
    ?_ (by simp [puts, flushes, empty]) hmeets hrun
  intro tr p l q hI hempty hstep
  rw [puts_append, flushes_append, hI]
  cases l with
  | put m =>
    obtain ⟨hm, rfl⟩ := step_put.mp hstep
    have hsource : p.source = [] := hempty
    simp [puts, flushes, hsource, chunk_of_ne_nil hm]
  | shift =>
    obtain rfl := step_shift.mp hstep
    rcases (hempty : p.sink = [] ∨ p.source = []) with h | h <;> simp [puts, flushes, h]
  | flush bytes =>
    obtain ⟨⟨rfl, hne⟩, rfl⟩ := step_flush.mp hstep
    simp [puts, flushes, chunk_of_ne_nil hne]

/-- As long as only messages of one kind are put in, flushes carry nothing else. -/
theorem madeOf_run {S : List β → Prop} (hmade : MadeOf S p) (hputs : ∀ m ∈ puts tr, S m)
    (hrun : run step p tr = some q) : MadeOf S q ∧ ∀ bytes ∈ flushes tr, ConcatOf S bytes := by
  induction tr generalizing p with
  | nil =>
    obtain rfl : p = q := Option.some.inj hrun
    exact ⟨hmade, by simp [flushes]⟩
  | cons l tr ih =>
    obtain ⟨r, hr, hrun⟩ := Option.bind_eq_some_iff.mp hrun
    have hrest : ∀ m ∈ puts tr, S m := fun m hm =>
      hputs m (by rw [← List.singleton_append, puts_append]; exact List.mem_append_right _ hm)
    cases l with
    | put m =>
      obtain ⟨_, rfl⟩ := step_put.mp hr
      have hm : ConcatOf S m := ConcatOf.single (hputs m (by simp [puts]))
      have hr' : MadeOf S ⟨p.source ++ m, p.sink⟩ := ⟨hmade.1.append hm, hmade.2⟩
      exact ih hr' hrest hrun
    | shift =>
      obtain rfl := step_shift.mp hr
      have hr' : MadeOf S ⟨[], p.sink ++ p.source⟩ := ⟨ConcatOf.nil S, hmade.2.append hmade.1⟩
      exact ih hr' hrest hrun
    | flush bytes =>
      obtain ⟨⟨rfl, _⟩, rfl⟩ := step_flush.mp hr
      have hr' : MadeOf S ⟨p.source, []⟩ := ⟨hmade.1, ConcatOf.nil S⟩
      obtain ⟨hq, hflushes⟩ := ih hr' hrest hrun
      exact ⟨hq, List.forall_mem_cons.mpr ⟨hmade.2, hflushes⟩⟩

/-- The number of messages a pipeline seems to hold. -/
def load (p : Pipeline β) : ℕ := (chunk p.sink).length + (chunk p.source).length

/-- A step keeps the number of messages put in minus the number flushed when it
appends to an empty buffer, and otherwise makes one message disappear. -/
theorem load_step {l : Label β} (hstep : step p l = some q) :
    (AppendsToEmpty p l ∧ (flushes [l]).length + load q = (puts [l]).length + load p) ∨
      (¬AppendsToEmpty p l ∧ (flushes [l]).length + load q < (puts [l]).length + load p) := by
  cases l with
  | put m =>
    obtain ⟨hm, rfl⟩ := step_put.mp hstep
    by_cases h : p.source = []
    · left
      simp [AppendsToEmpty, h, puts, flushes, load, chunk_of_ne_nil hm]
      omega
    · right
      simp [AppendsToEmpty, h, puts, flushes, load, chunk]
  | shift =>
    obtain rfl := step_shift.mp hstep
    by_cases hsink : p.sink = [] <;> by_cases hsource : p.source = [] <;>
      simp [AppendsToEmpty, hsink, hsource, puts, flushes, load, chunk]
  | flush bytes =>
    obtain ⟨⟨rfl, hne⟩, rfl⟩ := step_flush.mp hstep
    left
    simp [AppendsToEmpty, puts, flushes, load, chunk_of_ne_nil hne]

/-- Over a run, no message disappears exactly when every step appends to an empty buffer. -/
theorem load_run (hrun : run step p tr = some q) :
    (flushes tr).length + load q ≤ (puts tr).length + load p ∧
      ((flushes tr).length + load q = (puts tr).length + load p ↔
        Meets step AppendsToEmpty p tr) := by
  induction tr generalizing p with
  | nil =>
    obtain rfl : p = q := Option.some.inj hrun
    simp [puts, flushes, Meets]
  | cons l tr ih =>
    obtain ⟨r, hr, hrun⟩ := Option.bind_eq_some_iff.mp hrun
    obtain ⟨hle, hiff⟩ := ih hrun
    have hputs : (puts (l :: tr)).length = (puts [l]).length + (puts tr).length := by
      rw [← List.length_append, ← puts_append, List.singleton_append]
    have hflushes : (flushes (l :: tr)).length = (flushes [l]).length + (flushes tr).length := by
      rw [← List.length_append, ← flushes_append, List.singleton_append]
    have hrest : Meets step AppendsToEmpty p (l :: tr) ↔
        AppendsToEmpty p l ∧ Meets step AppendsToEmpty r tr := by
      simp [Meets, hr]
    rw [hrest, ← hiff, hputs, hflushes]
    rcases load_step hr with ⟨hC, h⟩ | ⟨hC, h⟩
    · simp only [hC, true_and]
      omega
    · simp only [hC, false_and, iff_false]
      omega

/-- When everything put in has been flushed, the flushes carried the messages one
by one exactly when every step of the run appended to an empty buffer. -/
theorem flushes_prefix_iff (hrun : run step empty tr = some empty) :
    flushes tr <+: puts tr ↔ Meets step AppendsToEmpty empty tr := by
  constructor
  · rintro ⟨rest, hrest⟩
    have hflat : rest.flatten = [] := by
      have h := conservation hrun
      rw [← hrest, List.flatten_append] at h
      simpa [empty] using h
    have hrest' : rest = [] := by
      refine List.eq_nil_iff_forall_not_mem.mpr fun m hm => ?_
      refine ne_nil_of_mem_puts hrun (m := m) ?_ (List.flatten_eq_nil_iff.mp hflat m hm)
      rw [← hrest]
      exact List.mem_append_right _ hm
    refine (load_run hrun).2.mp ?_
    rw [← hrest, hrest', List.append_nil]
  · intro hmeets
    rw [puts_eq_of_appendsToEmpty hmeets hrun]
    simp [empty]

end Pipeline

end Machine
