import VisionLab.Inference.CudaDeviceBuffer
import VisionLab.Lib.Owned

/-! Buffers as values. However a program makes, moves, assigns, fills and destroys its buffers, it
gets the answers that it would get from values that move between its places, and once it has waited
for its stream the bytes that the values give: no pointer is freed twice or used after it was freed,
no buffer changes another one, and none is left in the end. -/
namespace VisionLab

/-- What there is at each place of the program (no object, an object without a block, or a value),
and the bytes at each place of the host. -/
structure BufferStore where
  buffers : ℕ → Option (Option (List Byte)) := fun _ => none
  host : ℕ → List Byte := fun _ => []

namespace BufferStore

def put (n : ℕ) (value : Option (Option (List Byte))) (s : BufferStore) : BufferStore :=
  { s with buffers := Function.update s.buffers n value }

def putHost (dst : ℕ) (data : List Byte) (s : BufferStore) : BufferStore :=
  { s with host := Function.update s.host dst data }

def move (dst src : ℕ) (value : Option (List Byte)) (s : BufferStore) : BufferStore :=
  (s.put dst (some value)).put src (some none)

def Holds (s : BufferStore) (n bytes : ℕ) : Prop :=
  ∃ data, s.buffers n = some (some data) ∧ data.length = bytes

/-- The same buffers with values of the same sizes. -/
def Alike (s after : BufferStore) : Prop :=
  ∀ n, (after.buffers n).map (Option.map List.length) = (s.buffers n).map (Option.map List.length)

/-- What a call on values may answer and do. Only the runtime decides whether there is memory for a
new buffer, what is in it, and which copies and synchronisations fail. -/
inductive Step (s : BufferStore) : BufferCall → BufferAnswer → BufferStore → Prop where
  | constructed (n : ℕ) (data : List Byte) (some_ : data ≠ []) :
    Step s (.construct n data.length) (.constructed true) (s.put n (some (some data)))
  | unconstructed (n bytes : ℕ) :
    Step s (.construct n bytes) (.constructed false) (s.put n (some none))
  | moveConstructed (dst src : ℕ) (value : Option (List Byte)) (there : s.buffers src = some value) :
    Step s (.moveConstruct dst src) .done (s.move dst src value)
  | selfAssigned (n : ℕ) : Step s (.moveAssign n n) .done s
  | moveAssigned (dst src : ℕ) (value : Option (List Byte)) (apart : dst ≠ src)
      (there : s.buffers src = some value) :
    Step s (.moveAssign dst src) .done (s.move dst src value)
  | destroyed (n : ℕ) : Step s (.destroy n) .done (s.put n none)
  | filled (n bytes stream : ℕ) (src : List Byte) (holds : s.Holds n bytes) :
    Step s (.copyFromHost n (some src) bytes stream) (.copied true)
      (s.put n (some (some (src.take bytes))))
  | unfilled (n bytes stream : ℕ) (src : Option (List Byte))
      (refused : src = none ∨ ¬ s.Holds n bytes) :
    Step s (.copyFromHost n src bytes stream) (.copied false) s
  | fillFailed (n bytes stream : ℕ) (src : List Byte) (holds : s.Holds n bytes)
      {after : BufferStore} (alike : s.Alike after) :
    Step s (.copyFromHost n (some src) bytes stream) (.copied false) after
  | read (n stream dst : ℕ) (data : List Byte) (there : s.buffers n = some (some data)) :
    Step s (.copyToHost n (some dst) data.length stream) (.copied true) (s.putHost dst data)
  | unread (n bytes stream : ℕ) (dst : Option ℕ) (refused : dst = none ∨ ¬ s.Holds n bytes) :
    Step s (.copyToHost n dst bytes stream) (.copied false) s
  | readFailed (n bytes stream dst : ℕ) (holds : s.Holds n bytes) {after : BufferStore}
      (alike : s.Alike after) :
    Step s (.copyToHost n (some dst) bytes stream) (.copied false) after
  | synchronized (stream : ℕ) (places : List ℕ) :
    Step s (.synchronize stream places) (.synchronized (some (places.map s.host))) s
  | synchronizeFailed (stream : ℕ) (places : List ℕ) {after : BufferStore}
      (alike : s.Alike after) :
    Step s (.synchronize stream places) (.synchronized none) after

inductive Run : BufferStore → List BufferCall → List BufferAnswer → BufferStore → Prop where
  | nil (s : BufferStore) : Run s [] [] s
  | cons {s next after : BufferStore} {call : BufferCall} {calls : List BufferCall}
      {answer : BufferAnswer} {answers : List BufferAnswer} (first : Step s call answer next)
      (rest : Run next calls answers after) : Run s (call :: calls) (answer :: answers) after

end BufferStore

namespace CudaMemory

theorem Alike.refl (m : CudaMemory) : m.Alike m := fun _ => rfl

theorem Alike.copied {m : CudaMemory} {copy : CudaCopy} (allowed : m.Allows copy) :
    m.Alike (m.copied copy) := by
  obtain ⟨block, there, large⟩ := allowed
  cases copy with
  | deviceToHost dst pointer bytes => exact Alike.refl m
  | hostToDevice pointer src =>
    intro other
    by_cases same : other = pointer
    · subst same
      simp only [CudaCopy.pointer] at there
      simp only [CudaCopy.bytes] at large
      simp only [CudaMemory.copied, set, there, Option.map_some, Function.update_self,
        List.length_append, List.length_drop]
      congr 1
      omega
    · simp [CudaMemory.copied, set, same]

theorem Alike.some {m after : CudaMemory} (alike : m.Alike after) {pointer : ℕ} {block : List Byte}
    (there : m.blocks pointer = some block) :
    ∃ data, after.blocks pointer = some data ∧ data.length = block.length := by
  have same := alike pointer
  rw [there] at same
  exact Option.map_eq_some_iff.mp same

theorem Alike.live {m after : CudaMemory} (alike : m.Alike after) (pointer : ℕ) :
    (after.blocks pointer).isSome = true ↔ (m.blocks pointer).isSome = true := by
  have same := congrArg Option.isSome (alike pointer)
  simpa using same

end CudaMemory

namespace CudaProgram

open Owned CudaRuntime

variable {G : Type} [CudaRuntime G]

def estate (w : CudaProgram G) : Estate ℕ ℕ where
  live := fun pointer => ((ahead w.gpu).blocks pointer).isSome = true
  held := fun n => (w.objects n).bind CudaDeviceBuffer.device

def value (m : CudaMemory) (b : CudaDeviceBuffer) : Option (List Byte) := b.device.bind m.blocks

/-- The program as the store it stands for, once all that waits has been done. -/
def view (w : CudaProgram G) : BufferStore where
  buffers := fun n => (w.objects n).map (value (ahead w.gpu))
  host := (ahead w.gpu).host

def Fits (w : CudaProgram G) (n : ℕ) : Prop :=
  ∀ b pointer, w.objects n = some b → b.device = some pointer →
    ∃ block, (ahead w.gpu).blocks pointer = some block ∧ block.length = b.bytes

/-- Every block has one owner, who knows its size, and no other stream has anything waiting. -/
structure Sound (stream : CudaStream) (w : CudaProgram G) : Prop where
  settled : w.estate.Settled
  fits : ∀ n, w.Fits n
  alone : alone stream w.gpu

/-- The other places have the objects and the blocks that they had. -/
structure Leaves (places : List ℕ) (w after : CudaProgram G) : Prop where
  objects : ∀ m ∉ places, after.objects m = w.objects m
  blocks : ∀ m ∉ places, ∀ pointer, w.estate.held m = some pointer →
    (ahead after.gpu).blocks pointer = (ahead w.gpu).blocks pointer

theorem held_of_object {w : CudaProgram G} {n pointer : ℕ} {b : CudaDeviceBuffer}
    (there : w.objects n = some b) (device : b.device = some pointer) :
    w.estate.held n = some pointer := by
  simp [estate, there, device]

variable {stream : CudaStream} {w after : CudaProgram G} {places : List ℕ}

theorem Leaves.buffers (leaves : Leaves places w after) {m : ℕ} (other : m ∉ places) :
    after.view.buffers m = w.view.buffers m := by
  simp only [view, leaves.objects m other]
  cases there : w.objects m with
  | none => rfl
  | some b =>
    cases device : b.device with
    | none => simp [value, device]
    | some pointer =>
      simp [value, device, leaves.blocks m other pointer (held_of_object there device)]

theorem Leaves.sound (leaves : Leaves places w after) (h : w.Sound stream)
    (settled : after.estate.Settled) (fits : ∀ n ∈ places, after.Fits n)
    (quiet : CudaRuntime.alone stream after.gpu) : after.Sound stream := by
  refine ⟨settled, ?_, quiet⟩
  intro n
  by_cases touched : n ∈ places
  · exact fits n touched
  · intro b pointer there device
    rw [leaves.objects n touched] at there
    obtain ⟨block, had, size⟩ := h.fits n b pointer there device
    exact ⟨block, (leaves.blocks n touched pointer (held_of_object there device)).trans had, size⟩

theorem Leaves.put {n : ℕ} (leaves : Leaves [n] w after)
    (host : (ahead after.gpu).host = (ahead w.gpu).host) :
    after.view = w.view.put n ((after.objects n).map (value (ahead after.gpu))) := by
  have buffers : after.view.buffers = (w.view.put n (after.view.buffers n)).buffers := by
    funext m
    by_cases here : m = n
    · subst here
      simp [BufferStore.put]
    · rw [leaves.buffers (List.mem_singleton.not.mpr here)]
      simp [BufferStore.put, here]
  calc after.view = ⟨after.view.buffers, (ahead after.gpu).host⟩ := rfl
    _ = ⟨(w.view.put n (after.view.buffers n)).buffers, (ahead w.gpu).host⟩ := by
      rw [← buffers, host]
    _ = _ := rfl

omit [CudaRuntime G] in
@[simp] theorem objects_put (n : ℕ) (left : Option CudaDeviceBuffer) (gpu : G) :
    (w.put n left gpu).objects n = left := by
  simp [CudaProgram.put]

theorem held_put (n : ℕ) (left : Option CudaDeviceBuffer) (gpu : G) :
    (w.put n left gpu).estate.held =
      Function.update w.estate.held n (left.bind CudaDeviceBuffer.device) := by
  funext m
  by_cases here : m = n
  · subst here
    simp [estate, CudaProgram.put]
  · simp [estate, CudaProgram.put, here]

theorem leaves_put {n : ℕ} (left : Option CudaDeviceBuffer) {gpu : G}
    (blocks : ∀ m pointer, m ≠ n → w.estate.held m = some pointer →
      (ahead gpu).blocks pointer = (ahead w.gpu).blocks pointer) :
    Leaves [n] w (w.put n left gpu) := by
  constructor
  · intro m other
    simp [CudaProgram.put, List.mem_singleton.not.mp other]
  · exact fun m other pointer holds => blocks m pointer (List.mem_singleton.not.mp other) holds

/-- What is left at the place of a call has no block. -/
theorem Leaves.bare {n : ℕ} {left : Option CudaDeviceBuffer} {gpu : G}
    (leaves : Leaves [n] w (w.put n left gpu)) (h : w.Sound stream)
    (settled : (w.put n left gpu).estate.Settled)
    (bare : left.bind CudaDeviceBuffer.device = none)
    (host : (ahead gpu).host = (ahead w.gpu).host) (quiet : CudaRuntime.alone stream gpu) :
    (w.put n left gpu).Sound stream ∧
      (w.put n left gpu).view = w.view.put n (left.map (fun _ => none)) := by
  have there := objects_put (w := w) n left gpu
  constructor
  · refine leaves.sound h settled ?_ quiet
    intro m here b pointer found device
    rw [List.mem_singleton.mp here, there] at found
    rw [found, Option.bind_some, device] at bare
    contradiction
  · rw [leaves.put host, there]
    cases left with
    | none => rfl
    | some b => simp [value, show b.device = none from bare]

/- What becomes of the place of an object that owns nothing, that gives its block back, and that
gets a new one. -/

theorem Sound.bare (h : w.Sound stream) {n : ℕ} (left : Option CudaDeviceBuffer)
    (free : w.estate.held n = none) (bare : left.bind CudaDeviceBuffer.device = none) {gpu : G}
    (same : ahead gpu = ahead w.gpu) (quiet : CudaRuntime.alone stream gpu) :
    (w.put n left gpu).Sound stream ∧
      (w.put n left gpu).view = w.view.put n (left.map (fun _ => none)) := by
  have leaves : Leaves [n] w (w.put n left gpu) := leaves_put left (fun _ _ _ _ => by rw [same])
  have live : ∀ pointer, (w.put n left gpu).estate.live pointer ↔ w.estate.live pointer := by
    intro pointer
    simp only [estate, CudaProgram.put, same]
  have held : (w.put n left gpu).estate.held = w.estate.held := by
    rw [held_put, bare, ← free, Function.update_eq_self]
  exact leaves.bare h (h.settled.same ⟨live, held⟩) bare (by rw [same]) quiet

theorem Sound.freed (h : w.Sound stream) {n pointer : ℕ} (left : Option CudaDeviceBuffer)
    (holds : w.estate.held n = some pointer) (bare : left.bind CudaDeviceBuffer.device = none)
    {gpu : G} (now : ahead gpu = (ahead w.gpu).set pointer none)
    (quiet : CudaRuntime.alone stream gpu) :
    (w.put n left gpu).Sound stream ∧
      (w.put n left gpu).view = w.view.put n (left.map (fun _ => none)) := by
  have leaves : Leaves [n] w (w.put n left gpu) := by
    refine leaves_put left ?_
    intro m q other mine
    have apart : q ≠ pointer := by
      rintro rfl
      exact other (h.settled.single m n q mine holds)
    simp [now, CudaMemory.set, apart]
  have live : ∀ k, (w.put n left gpu).estate.live k ↔ (w.estate.release n).live k := by
    intro k
    have others : (w.estate.release n).live k ↔ w.estate.live k ∧ pointer ≠ k := by
      simp [Estate.release, holds]
    rw [others]
    by_cases here : k = pointer
    · simp [estate, CudaProgram.put, now, CudaMemory.set, here]
    · simp [estate, CudaProgram.put, now, CudaMemory.set, here, Ne.symm here]
  have held : (w.put n left gpu).estate.held = (w.estate.release n).held := by
    rw [held_put, bare]
    rfl
  refine leaves.bare h ((h.settled.release n).same ⟨live, held⟩) bare ?_ quiet
  rw [now]
  rfl

theorem Sound.given (h : w.Sound stream) {n pointer : ℕ} {b : CudaDeviceBuffer} {block : List Byte}
    (free : w.estate.held n = none) (device : b.device = some pointer)
    (fresh : (ahead w.gpu).blocks pointer = none) {gpu : G}
    (now : ahead gpu = (ahead w.gpu).set pointer (some block)) (size : block.length = b.bytes)
    (quiet : CudaRuntime.alone stream gpu) :
    (w.put n (some b) gpu).Sound stream ∧
      (w.put n (some b) gpu).view = w.view.put n (some (some block)) := by
  have there := objects_put (w := w) n (some b) gpu
  have unborn : ¬ w.estate.live pointer := by simp [estate, fresh]
  have leaves : Leaves [n] w (w.put n (some b) gpu) := by
    refine leaves_put (some b) ?_
    intro m q _ holds
    have other : q ≠ pointer := by
      rintro rfl
      exact unborn (h.settled.live m q holds)
    simp [now, CudaMemory.set, other]
  have live : ∀ k,
      (w.put n (some b) gpu).estate.live k ↔ (w.estate.acquire n pointer).live k := by
    intro k
    by_cases here : k = pointer
    · simp [estate, Estate.acquire, CudaProgram.put, now, CudaMemory.set, here]
    · simp [estate, Estate.acquire, CudaProgram.put, now, CudaMemory.set, here]
  have held : (w.put n (some b) gpu).estate.held = (w.estate.acquire n pointer).held := by
    rw [held_put, Option.bind_some, device]
    rfl
  constructor
  · refine leaves.sound h ((h.settled.acquire unborn free).same ⟨live, held⟩) ?_ quiet
    intro m here old q found had
    rw [List.mem_singleton.mp here, there] at found
    obtain rfl := Option.some.inj found
    obtain rfl := Option.some.inj (device.symm.trans had)
    exact ⟨block, by simp [CudaProgram.put, now, CudaMemory.set], size⟩
  · rw [leaves.put (by rw [CudaProgram.put, now]; rfl), there]
    simp [value, device, CudaProgram.put, now, CudaMemory.set]

/- Each call, in turn. -/

theorem construct_sound (h : w.Sound stream) {n : ℕ} (bytes : ℕ) (free : w.objects n = none) :
    (w.construct n bytes).2.Sound stream ∧
      BufferStore.Step w.view (.construct n bytes) (.constructed (w.construct n bytes).1)
        (w.construct n bytes).2.view := by
  have unheld : w.estate.held n = none := by simp [estate, free]
  -- whatever the reason, an object without a block is no value
  have empty : ∀ (b : CudaDeviceBuffer) (gpu : G), b.device = none → ahead gpu = ahead w.gpu →
      CudaRuntime.alone stream gpu → (w.put n (some b) gpu).Sound stream ∧
        BufferStore.Step w.view (.construct n bytes) (.constructed b.valid)
          (w.put n (some b) gpu).view := by
    intro b gpu device same quiet
    obtain ⟨sound, shown⟩ := h.bare (some b) unheld device same quiet
    refine ⟨sound, ?_⟩
    rw [shown, CudaDeviceBuffer.valid, device]
    exact .unconstructed n bytes
  unfold construct CudaDeviceBuffer.new
  by_cases zero : bytes = 0
  · rw [if_pos zero]
    exact empty _ _ rfl rfl h.alone
  · rw [if_neg zero]
    have quiet : CudaRuntime.alone stream (cudaMalloc bytes w.gpu).2 := malloc_alone h.alone
    cases asked : cudaMalloc bytes w.gpu with | mk answer gpu =>
    rw [asked] at quiet
    cases answer with
    | error reason => exact empty _ _ rfl (malloc_error asked) quiet
    | ok pointer =>
      obtain ⟨fresh, block, size, now⟩ := malloc_ok (Nat.pos_of_ne_zero zero) asked
      obtain ⟨sound, shown⟩ := h.given (b := ⟨some pointer, bytes, ""⟩) unheld rfl fresh now size quiet
      refine ⟨sound, ?_⟩
      simp only [shown]
      subst size
      exact .constructed n block (List.ne_nil_of_length_pos (Nat.pos_of_ne_zero zero))

/-- A buffer takes over the block of another one, where it has none itself. -/
theorem place_sound (h : w.Sound stream) {dst src : ℕ} (apart : dst ≠ src)
    (free : w.estate.held dst = none) {other : CudaDeviceBuffer}
    (there : w.objects src = some other) :
    (w.place dst src other.moved.1 other.moved.2 w.gpu).Sound stream ∧
      (w.place dst src other.moved.1 other.moved.2 w.gpu).view =
        w.view.move dst src (value (ahead w.gpu) other) := by
  have at_src : (w.place dst src other.moved.1 other.moved.2 w.gpu).objects src =
      some other.moved.2 := by
    simp [place, CudaProgram.put]
  have at_dst : (w.place dst src other.moved.1 other.moved.2 w.gpu).objects dst =
      some other.moved.1 := by
    simp [place, CudaProgram.put, apart]
  have leaves : Leaves [dst, src] w (w.place dst src other.moved.1 other.moved.2 w.gpu) := by
    constructor
    · intro m away
      simp only [List.mem_cons, List.not_mem_nil, or_false, not_or] at away
      simp [place, CudaProgram.put, away.1, away.2]
    · exact fun _ _ _ _ => rfl
  have held : (w.place dst src other.moved.1 other.moved.2 w.gpu).estate.held =
      (w.estate.transfer src dst).held := by
    have had : w.estate.held src = other.device := by simp [estate, there]
    rw [place, held_put, held_put]
    simp only [Estate.transfer, had]
    rfl
  constructor
  · refine leaves.sound h ((h.settled.transfer apart free).same ⟨fun _ => Iff.rfl, held⟩) ?_ h.alone
    intro m touched b pointer now device
    simp only [List.mem_cons, List.not_mem_nil, or_false] at touched
    rcases touched with rfl | rfl
    · obtain rfl := Option.some.inj (at_dst.symm.trans now)
      exact h.fits src other pointer there device
    · obtain rfl := Option.some.inj (at_src.symm.trans now)
      contradiction
  · have buffers : (w.place dst src other.moved.1 other.moved.2 w.gpu).view.buffers =
        (w.view.move dst src (value (ahead w.gpu) other)).buffers := by
      funext m
      by_cases gone : m = src
      · subst gone
        simp only [view, BufferStore.move, BufferStore.put, at_src, Function.update_self]
        rfl
      · by_cases here : m = dst
        · subst here
          simp only [view, BufferStore.move, BufferStore.put, at_dst, Function.update_of_ne gone,
            Function.update_self]
          rfl
        · rw [leaves.buffers (by simp [gone, here])]
          simp [BufferStore.move, BufferStore.put, gone, here]
    calc (w.place dst src other.moved.1 other.moved.2 w.gpu).view =
          ⟨(w.place dst src other.moved.1 other.moved.2 w.gpu).view.buffers, (ahead w.gpu).host⟩ := rfl
      _ = w.view.move dst src (value (ahead w.gpu) other) := by
        rw [buffers]
        rfl

theorem Sound.destroyed (h : w.Sound stream) {n : ℕ} {b : CudaDeviceBuffer}
    (there : w.objects n = some b) (left : Option CudaDeviceBuffer)
    (bare : left.bind CudaDeviceBuffer.device = none) :
    ∃ rest gpu, b.destroy w.gpu = .ok (rest, gpu) ∧ (w.put n left gpu).Sound stream ∧
      (w.put n left gpu).view = w.view.put n (left.map (fun _ => none)) := by
  unfold CudaDeviceBuffer.destroy
  cases device : b.device with
  | none =>
    have free : w.estate.held n = none := by simp [estate, there, device]
    exact ⟨b, w.gpu, rfl, h.bare left free bare rfl h.alone⟩
  | some pointer =>
    obtain ⟨block, filled, -⟩ := h.fits n b pointer there device
    refine ⟨{ b with device := none, bytes := 0 }, CudaRuntime.cudaFree pointer w.gpu,
      by simp [VisionLab.cudaFree, filled], ?_⟩
    have now : ahead (CudaRuntime.cudaFree pointer w.gpu) = (ahead w.gpu).set pointer none :=
      free_ahead (by simp [filled])
    exact h.freed left (held_of_object there device) bare now (free_alone h.alone)

theorem view_of_object {n : ℕ} {b : CudaDeviceBuffer} (there : w.objects n = some b) :
    w.view.buffers n = some (value (ahead w.gpu) b) := by
  simp [view, there]

theorem moveAssign_sound (h : w.Sound stream) {dst src : ℕ} {b other : CudaDeviceBuffer}
    (target : w.objects dst = some b) (origin : w.objects src = some other) :
    ∃ after, w.moveAssign dst src = .ok after ∧ after.Sound stream ∧
      BufferStore.Step w.view (.moveAssign dst src) .done after.view ∧
        ∀ n, (after.objects n).isSome = (w.objects n).isSome := by
  unfold moveAssign
  by_cases self : dst = src
  · subst self
    rw [if_pos rfl]
    exact ⟨w, rfl, h, .selfAssigned dst, fun _ => rfl⟩
  · -- an object without a block stands for the target between the two halves of the assignment
    rw [if_neg self, target, origin]
    obtain ⟨rest, gpu, freed, sound, shown⟩ := h.destroyed target (some {}) rfl
    have still : (w.put dst (some {}) gpu).objects src = some other := by
      simp [CudaProgram.put, Ne.symm self, origin]
    have free : (w.put dst (some {}) gpu).estate.held dst = none := by
      rw [held_put, Function.update_self]
      rfl
    obtain ⟨placed, moved⟩ := place_sound sound self free still
    have together : (w.put dst (some {}) gpu).place dst src other.moved.1 other.moved.2 gpu =
        w.place dst src other.moved.1 other.moved.2 gpu := by
      simp [place, CudaProgram.put]
    have kept : value (ahead gpu) other = value (ahead w.gpu) other := by
      have same := congrArg (fun s => s.buffers src) shown
      simp only [BufferStore.put, Function.update_of_ne (Ne.symm self), view_of_object still,
        view_of_object origin] at same
      exact Option.some.inj same
    refine ⟨w.place dst src other.moved.1 other.moved.2 gpu,
      by simp [CudaDeviceBuffer.assign, freed], together ▸ placed, ?_, ?_⟩
    · have shows : (w.place dst src other.moved.1 other.moved.2 gpu).view =
          w.view.move dst src (value (ahead w.gpu) other) :=
        calc (w.place dst src other.moved.1 other.moved.2 gpu).view
          _ = (w.put dst (some {}) gpu).view.move dst src (value (ahead gpu) other) :=
            together ▸ moved
          _ = w.view.move dst src (value (ahead w.gpu) other) := by
            rw [shown, kept]
            simp [BufferStore.move, BufferStore.put]
      rw [shows]
      exact .moveAssigned dst src _ self (view_of_object origin)
    · intro n
      by_cases gone : n = src
      · subst gone
        simp [place, origin]
      · by_cases here : n = dst
        · subst here
          simp [place, CudaProgram.put, gone, target]
        · simp [place, CudaProgram.put, gone, here]

/-- The objects are the same but for the texts of their errors. -/
def Kept (w after : CudaProgram G) : Prop :=
  ∀ n, (after.objects n).map (fun b => (b.device, b.bytes)) =
    (w.objects n).map (fun b => (b.device, b.bytes))

omit [CudaRuntime G] in
theorem Kept.put {n : ℕ} {b noted : CudaDeviceBuffer} (there : w.objects n = some b)
    (device : noted.device = b.device) (bytes : noted.bytes = b.bytes) (gpu : G) :
    Kept w (w.put n (some noted) gpu) := by
  intro m
  by_cases here : m = n
  · subst here
    simp [there, device, bytes]
  · simp [CudaProgram.put, here]

theorem Kept.held (kept : Kept w after) : after.estate.held = w.estate.held := by
  have through : ∀ (w : CudaProgram G) n, w.estate.held n =
      ((w.objects n).map (fun b => (b.device, b.bytes))).bind Prod.fst := by
    intro w n
    simp only [estate]
    cases w.objects n <;> rfl
  funext n
  rw [through, through, kept n]

theorem Kept.view (kept : Kept w after) : after.view =
    { buffers := fun n => (w.objects n).map (value (ahead after.gpu))
      host := (ahead after.gpu).host } := by
  have through : ∀ (w : CudaProgram G) n, (w.objects n).map (value (ahead after.gpu)) =
      ((w.objects n).map (fun b => (b.device, b.bytes))).map
        (fun b => b.1.bind (ahead after.gpu).blocks) := by
    intro w n
    cases w.objects n <;> rfl
  have buffers : (fun n => (after.objects n).map (value (ahead after.gpu))) =
      fun n => (w.objects n).map (value (ahead after.gpu)) := by
    funext n
    rw [through after, through w, kept n]
  calc after.view = ⟨fun n => (after.objects n).map (value (ahead after.gpu)),
        (ahead after.gpu).host⟩ := rfl
    _ = _ := by rw [buffers]

theorem Kept.still (kept : Kept w after) (same : ahead after.gpu = ahead w.gpu) :
    after.view = w.view := by
  rw [kept.view, same]
  rfl

theorem Kept.alike (kept : Kept w after) (alike : (ahead w.gpu).Alike (ahead after.gpu)) :
    w.view.Alike after.view := by
  rw [kept.view]
  intro n
  simp only [CudaProgram.view]
  cases w.objects n with
  | none => rfl
  | some b =>
    cases device : b.device with
    | none => simp [value, device]
    | some pointer => simp [value, device, alike pointer]

theorem Kept.sound (kept : Kept w after) (h : w.Sound stream)
    (alike : (ahead w.gpu).Alike (ahead after.gpu))
    (quiet : CudaRuntime.alone stream after.gpu) : after.Sound stream := by
  refine ⟨h.settled.same ⟨alike.live, kept.held⟩, ?_, quiet⟩
  intro n b pointer there device
  have same := kept n
  rw [there, Option.map_some] at same
  obtain ⟨old, had, equal⟩ := Option.map_eq_some_iff.mp same.symm
  obtain ⟨devices, sizes⟩ := Prod.mk.inj equal
  obtain ⟨block, found, size⟩ := h.fits n old pointer had (devices.trans device)
  obtain ⟨data, now, length⟩ := alike.some found
  exact ⟨data, now, length.trans (size.trans sizes)⟩

end CudaProgram

namespace CudaDeviceBuffer

theorem checkSize_spec (bytes : ℕ) (b : CudaDeviceBuffer) :
    (b.checkSize bytes).2.device = b.device ∧ (b.checkSize bytes).2.bytes = b.bytes ∧
      ((b.checkSize bytes).1 = true ↔ b.device ≠ none ∧ bytes = b.bytes) := by
  unfold checkSize valid
  cases device : b.device with
  | none =>
    simp only [Option.isSome_none, Bool.not_false, if_true]
    split <;> simp [device]
  | some pointer =>
    by_cases size : bytes = b.bytes
    · simp [device, size]
    · simp [size]

end CudaDeviceBuffer

namespace CudaProgram

open CudaRuntime

variable {G : Type} [CudaRuntime G] {stream : CudaStream} {w : CudaProgram G} {n bytes : ℕ}
  {b : CudaDeviceBuffer}

theorem Sound.checkSize (h : w.Sound stream) (there : w.objects n = some b) (bytes : ℕ) :
    (b.checkSize bytes).1 = true ↔ w.view.Holds n bytes := by
  rw [(b.checkSize_spec bytes).2.2, BufferStore.Holds, view_of_object there]
  constructor
  · rintro ⟨device, size⟩
    obtain ⟨pointer, had⟩ := Option.ne_none_iff_exists'.mp device
    obtain ⟨block, filled, length⟩ := h.fits n b pointer there had
    exact ⟨block, by simp [value, had, filled], length.trans size.symm⟩
  · rintro ⟨data, shown, length⟩
    obtain ⟨pointer, had, filled⟩ := Option.bind_eq_some_iff.mp (Option.some.inj shown)
    obtain ⟨block, also, size⟩ := h.fits n b pointer there had
    rw [filled] at also
    obtain rfl := Option.some.inj also
    exact ⟨by simp [had], length.symm.trans size⟩

/-- A copy of a block that is there is no fault. It waits on the stream, or it has failed. -/
theorem Sound.enqueue (h : w.Sound stream) (there : w.objects n = some b) {noted : CudaDeviceBuffer}
    (device : noted.device = b.device) (size : noted.bytes = b.bytes) {copy : CudaCopy}
    (allowed : (ahead w.gpu).Allows copy) :
    ∃ ok rest gpu, noted.enqueue copy stream w.gpu = .ok (ok, rest, gpu) ∧
      (w.put n (some rest) gpu).Sound stream ∧ Kept w (w.put n (some rest) gpu) ∧
        (ok = true ∧ ahead gpu = (ahead w.gpu).copied copy ∨
          ok = false ∧ (ahead w.gpu).Alike (ahead gpu)) := by
  obtain ⟨block, filled, large⟩ := id allowed
  have kept : ∀ error gpu, Kept w (w.put n (some { noted with error := error }) gpu) := by
    intro error gpu
    refine Kept.put there ?_ ?_ gpu
    · exact device
    · exact size
  have quiet : CudaRuntime.alone stream (CudaRuntime.cudaMemcpyAsync copy stream w.gpu).2 :=
    copy_alone h.alone
  unfold CudaDeviceBuffer.enqueue VisionLab.cudaMemcpyAsync
  rw [filled]
  simp only [if_neg (Nat.not_lt.mpr large)]
  cases asked : CudaRuntime.cudaMemcpyAsync copy stream w.gpu with | mk answer gpu =>
  rw [asked] at quiet
  cases answer with
  | some reason =>
    have alike := copy_error allowed asked
    have same := kept reason gpu
    exact ⟨false, _, gpu, rfl, same.sound h alike quiet, same, Or.inr ⟨rfl, alike⟩⟩
  | none =>
    have now := copy_ok h.alone allowed asked
    have alike : (ahead w.gpu).Alike (ahead gpu) := now ▸ CudaMemory.Alike.copied allowed
    have same := kept "" gpu
    exact ⟨true, _, gpu, rfl, same.sound h alike quiet, same, Or.inl ⟨rfl, now⟩⟩

theorem Sound.noted (h : w.Sound stream) (there : w.objects n = some b) {noted : CudaDeviceBuffer}
    (device : noted.device = b.device) (size : noted.bytes = b.bytes) {call : BufferCall}
    {answer : BufferAnswer} (step : BufferStore.Step w.view call answer w.view) :
    (w.put n (some noted) w.gpu).Sound stream ∧
      BufferStore.Step w.view call answer (w.put n (some noted) w.gpu).view := by
  have kept : Kept w (w.put n (some noted) w.gpu) := Kept.put there device size w.gpu
  refine ⟨kept.sound h (CudaMemory.Alike.refl _) h.alone, ?_⟩
  rw [kept.still rfl]
  exact step

/-- A block that is written as a whole is the new value of its owner, and of nobody else. -/
theorem Sound.written (h : w.Sound stream) (there : w.objects n = some b) {pointer : ℕ}
    (had : b.device = some pointer) {block data : List Byte}
    (filled : (ahead w.gpu).blocks pointer = some block) (length : data.length = block.length)
    {after : CudaProgram G} (kept : Kept w after)
    (now : ahead after.gpu = (ahead w.gpu).copied (.hostToDevice pointer data)) :
    after.view = w.view.put n (some (some data)) := by
  have whole : ahead after.gpu = (ahead w.gpu).set pointer (some data) := by
    rw [now, CudaMemory.copied, filled, Option.map_some, length, List.drop_length, List.append_nil]
  rw [kept.view, whole]
  have buffers : (fun m => (w.objects m).map (value ((ahead w.gpu).set pointer (some data)))) =
      (w.view.put n (some (some data))).buffers := by
    funext m
    by_cases here : m = n
    · subst here
      simp [there, value, had, CudaMemory.set, BufferStore.put]
    · simp only [BufferStore.put, Function.update_of_ne here, CudaProgram.view]
      cases found : w.objects m with
      | none => rfl
      | some other =>
        cases device : other.device with
        | none => simp [value, device]
        | some q =>
          have apart : q ≠ pointer := by
            rintro rfl
            exact here (h.settled.single m n q (held_of_object found device)
              (held_of_object there had))
          simp [value, device, CudaMemory.set, apart]
  rw [buffers]
  rfl

theorem copyFromHost_sound (h : w.Sound stream) (there : w.objects n = some b)
    {src : Option (List Byte)} (large : ∀ data ∈ src, bytes ≤ data.length) :
    ∃ ok rest gpu, b.copyFromHost src bytes stream w.gpu = .ok (ok, rest, gpu) ∧
      (w.put n (some rest) gpu).Sound stream ∧
      BufferStore.Step w.view (.copyFromHost n src bytes stream) (.copied ok)
        (w.put n (some rest) gpu).view := by
  obtain ⟨device, size, -⟩ := b.checkSize_spec bytes
  have fits := h.checkSize there bytes
  unfold CudaDeviceBuffer.copyFromHost
  cases checked : b.checkSize bytes with | mk ok noted =>
  simp only [checked] at device size fits
  -- what is refused leaves the values alone
  have refused : ∀ error, src = none ∨ ¬ w.view.Holds n bytes →
      (w.put n (some { noted with error := error }) w.gpu).Sound stream ∧
        BufferStore.Step w.view (.copyFromHost n src bytes stream) (.copied false)
          (w.put n (some { noted with error := error }) w.gpu).view := by
    intro error reason
    exact h.noted there (by exact device) (by exact size) (.unfilled n bytes stream src reason)
  cases src with
  | none => exact ⟨_, _, _, rfl, refused _ (Or.inl rfl)⟩
  | some data =>
    cases ok with
    | false => exact ⟨_, _, _, rfl, refused noted.error (Or.inr (by simpa using fits))⟩
    | true =>
      have holds := fits.mp rfl
      obtain ⟨block, shown, length⟩ := id holds
      rw [view_of_object there] at shown
      obtain ⟨pointer, had, filled⟩ := Option.bind_eq_some_iff.mp (Option.some.inj shown)
      have exactly : (data.take bytes).length = block.length := by
        rw [List.length_take, Nat.min_eq_left (large data rfl), length]
      have allowed : (ahead w.gpu).Allows (.hostToDevice pointer (data.take bytes)) :=
        ⟨block, filled, exactly.le⟩
      obtain ⟨ok, rest, gpu, done, sound, kept, outcome⟩ := h.enqueue there device size allowed
      refine ⟨ok, rest, gpu, ?_, sound, ?_⟩
      · simp only [device, had, Option.getD_some, done]
      · rcases outcome with ⟨rfl, now⟩ | ⟨rfl, alike⟩
        · rw [h.written there had filled exactly kept now]
          exact .filled n bytes stream data holds
        · exact .fillFailed n bytes stream data holds (kept.alike alike)

theorem copyToHost_sound (h : w.Sound stream) (there : w.objects n = some b) (dst : Option ℕ)
    (bytes : ℕ) :
    ∃ ok rest gpu, b.copyToHost dst bytes stream w.gpu = .ok (ok, rest, gpu) ∧
      (w.put n (some rest) gpu).Sound stream ∧
      BufferStore.Step w.view (.copyToHost n dst bytes stream) (.copied ok)
        (w.put n (some rest) gpu).view := by
  obtain ⟨device, size, -⟩ := b.checkSize_spec bytes
  have fits := h.checkSize there bytes
  unfold CudaDeviceBuffer.copyToHost
  cases checked : b.checkSize bytes with | mk ok noted =>
  simp only [checked] at device size fits
  have refused : ∀ error, dst = none ∨ ¬ w.view.Holds n bytes →
      (w.put n (some { noted with error := error }) w.gpu).Sound stream ∧
        BufferStore.Step w.view (.copyToHost n dst bytes stream) (.copied false)
          (w.put n (some { noted with error := error }) w.gpu).view := by
    intro error reason
    exact h.noted there (by exact device) (by exact size) (.unread n bytes stream dst reason)
  cases dst with
  | none => exact ⟨_, _, _, rfl, refused _ (Or.inl rfl)⟩
  | some dst =>
    cases ok with
    | false => exact ⟨_, _, _, rfl, refused noted.error (Or.inr (by simpa using fits))⟩
    | true =>
      have holds := fits.mp rfl
      obtain ⟨block, shown, rfl⟩ := id holds
      have value_ := view_of_object there
      rw [value_] at shown
      obtain ⟨pointer, had, filled⟩ := Option.bind_eq_some_iff.mp (Option.some.inj shown)
      have allowed : (ahead w.gpu).Allows (.deviceToHost dst pointer block.length) :=
        ⟨block, filled, Nat.le_refl _⟩
      obtain ⟨ok, rest, gpu, done, sound, kept, outcome⟩ := h.enqueue there device size allowed
      refine ⟨ok, rest, gpu, ?_, sound, ?_⟩
      · simp only [device, had, Option.getD_some, done]
      · rcases outcome with ⟨rfl, now⟩ | ⟨rfl, alike⟩
        · have whole : (w.put n (some rest) gpu).view = w.view.putHost dst block := by
            rw [kept.view]
            simp only [CudaProgram.put, now, CudaMemory.copied, filled, Option.getD_some,
              List.take_length]
            rfl
          rw [whole]
          exact .read n stream dst block (value_.trans shown)
        · exact .readFailed n block.length stream dst holds (kept.alike alike)

theorem synchronize_objects (on : CudaStream) (places : List ℕ) :
    (w.synchronize on places).2.objects = w.objects := by
  unfold CudaProgram.synchronize
  split <;> rfl

theorem synchronize_sound (h : w.Sound stream) (places : List ℕ) :
    (w.synchronize stream places).2.Sound stream ∧
      BufferStore.Step w.view (.synchronize stream places) (w.synchronize stream places).1
        (w.synchronize stream places).2.view := by
  have kept : ∀ gpu, Kept w { w with gpu := gpu } := fun _ _ => rfl
  have quiet : CudaRuntime.alone stream (cudaStreamSynchronize stream w.gpu).2 :=
    synchronize_alone h.alone
  unfold CudaProgram.synchronize
  cases asked : cudaStreamSynchronize stream w.gpu with | mk answer gpu =>
  rw [asked] at quiet
  cases answer with
  | some reason =>
    have alike := synchronize_error asked
    exact ⟨(kept gpu).sound h alike quiet,
      .synchronizeFailed stream places ((kept gpu).alike alike)⟩
  | none =>
    obtain ⟨same, host⟩ := synchronize_ok h.alone asked
    refine ⟨(kept gpu).sound h (same ▸ CudaMemory.Alike.refl _) quiet, ?_⟩
    simp only [(kept gpu).still same, host]
    exact .synchronized stream places

/-- The objects are where the language has them. -/
def At (now : ℕ → Bool) (w : CudaProgram G) : Prop := ∀ n, (w.objects n).isSome = now n

omit [CudaRuntime G] in
theorem At.some {now : ℕ → Bool} (there : At now w) {n : ℕ} (present : now n = true) :
    ∃ b, w.objects n = some b :=
  Option.isSome_iff_exists.mp ((there n).trans present)

omit [CudaRuntime G] in
theorem At.none {now : ℕ → Bool} (there : At now w) {n : ℕ} (absent : now n = false) :
    w.objects n = none :=
  Option.not_isSome_iff_eq_none.mp (by simp [there n, absent])

omit [CudaRuntime G] in
theorem At.put {now : ℕ → Bool} (there : At now w) (n : ℕ) (left : Option CudaDeviceBuffer)
    (gpu : G) : At (Function.update now n left.isSome) (w.put n left gpu) := by
  intro m
  by_cases here : m = n
  · subst here
    simp
  · simp [CudaProgram.put, here, there m]

omit [CudaRuntime G] in
theorem At.again {now : ℕ → Bool} (there : At now w) {n : ℕ} (present : now n = true)
    (b : CudaDeviceBuffer) (gpu : G) : At now (w.put n (Option.some b) gpu) := by
  have same := there.put n (Option.some b) gpu
  rwa [Option.isSome_some, ← present, Function.update_eq_self] at same

theorem step_sound (h : w.Sound stream) {now : ℕ → Bool} (there : At now w) {call : BufferCall}
    (legal : call.Legal stream now) :
    ∃ answer after, w.step call = .ok (answer, after) ∧ after.Sound stream ∧
      At (call.present now) after ∧ BufferStore.Step w.view call answer after.view := by
  cases call with
  | construct n bytes =>
    obtain ⟨sound, step⟩ := construct_sound h bytes (there.none legal)
    refine ⟨_, _, rfl, sound, ?_, step⟩
    exact there.put n _ _
  | moveConstruct dst src =>
    obtain ⟨absent, present⟩ := legal
    obtain ⟨other, origin⟩ := there.some present
    have apart : dst ≠ src := by
      rintro rfl
      rw [absent] at present
      contradiction
    obtain ⟨sound, shown⟩ := place_sound h apart (by simp [estate, there.none absent]) origin
    refine ⟨.done, _, by simp only [CudaProgram.step, origin], sound, ?_, ?_⟩
    · refine (there.put dst _ w.gpu).again ?_ _ w.gpu
      rw [Function.update_of_ne (Ne.symm apart), present]
    · rw [shown]
      exact .moveConstructed dst src _ (view_of_object origin)
  | moveAssign dst src =>
    obtain ⟨b, target⟩ := there.some legal.1
    obtain ⟨other, origin⟩ := there.some legal.2
    obtain ⟨after, done, sound, step, still⟩ := moveAssign_sound h target origin
    refine ⟨.done, after, by simp only [CudaProgram.step, done, Except.map], sound, ?_, step⟩
    exact fun n => (still n).trans (there n)
  | destroy n =>
    obtain ⟨b, here⟩ := there.some legal
    obtain ⟨rest, gpu, freed, sound, shown⟩ := h.destroyed here none rfl
    refine ⟨.done, w.put n none gpu, ?_, sound, there.put n none gpu, ?_⟩
    · simp only [CudaProgram.step, CudaProgram.destroy, here, freed, Except.map]
    · rw [shown]
      exact .destroyed n
  | copyFromHost n src bytes on =>
    obtain ⟨present, rfl, large⟩ := legal
    obtain ⟨b, here⟩ := there.some present
    obtain ⟨ok, rest, gpu, done, sound, step⟩ := copyFromHost_sound h here large
    exact ⟨.copied ok, _, by simp only [CudaProgram.step, CudaProgram.copy, here, done], sound,
      there.again present rest gpu, step⟩
  | copyToHost n dst bytes on =>
    obtain ⟨present, rfl⟩ := legal
    obtain ⟨b, here⟩ := there.some present
    obtain ⟨ok, rest, gpu, done, sound, step⟩ := copyToHost_sound h here dst bytes
    exact ⟨.copied ok, _, by simp only [CudaProgram.step, CudaProgram.copy, here, done], sound,
      there.again present rest gpu, step⟩
  | synchronize on places =>
    obtain rfl : on = stream := legal
    obtain ⟨sound, step⟩ := synchronize_sound h places
    refine ⟨(w.synchronize on places).1, (w.synchronize on places).2, rfl, sound, ?_, step⟩
    intro n
    rw [synchronize_objects]
    exact there n

end CudaProgram

/-- A runtime that lets every copy wait until the program waits for it. -/
structure QueuedCuda where
  memory : CudaMemory := {}
  waiting : List (CudaCopy × CudaStream) := []
  next : ℕ := 0
  unused : ∀ pointer, next ≤ pointer → memory.blocks pointer = none

namespace QueuedCuda

theorem copied_none {m : CudaMemory} {pointer : ℕ} (free : m.blocks pointer = none)
    (copies : List (CudaCopy × CudaStream)) :
    (copies.foldl (fun m copy => m.copied copy.1) m).blocks pointer = none := by
  induction copies generalizing m with
  | nil => exact free
  | cons copy copies ih =>
    refine ih ?_
    rcases copy with ⟨_ | _, _⟩
    · simp only [CudaMemory.copied, CudaMemory.set, Function.update_apply]
      split
      · rename_i same
        rw [← same, free]
        rfl
      · exact free
    · exact free

def ahead (g : QueuedCuda) : CudaMemory := g.waiting.foldl (fun m copy => m.copied copy.1) g.memory

def done (g : QueuedCuda) : QueuedCuda where
  memory := g.ahead
  next := g.next
  unused := fun pointer beyond => copied_none (g.unused pointer beyond) g.waiting

def cudaMalloc (bytes : ℕ) (g : QueuedCuda) : Except String ℕ × QueuedCuda :=
  if 1024 < bytes then (.error "out of memory", g)
  else
    (.ok g.next,
      { memory := g.done.memory.set g.next (some (List.replicate bytes 0))
        next := g.next + 1
        unused := fun pointer beyond => by
          have apart : pointer ≠ g.next := by omega
          simpa [CudaMemory.set, apart] using g.done.unused pointer (by simp [done]; omega) })

def cudaFree (pointer : ℕ) (g : QueuedCuda) : QueuedCuda where
  memory := g.done.memory.set pointer none
  next := g.next
  unused := fun other beyond => by
    by_cases here : other = pointer
    · simp [CudaMemory.set, here]
    · simpa [CudaMemory.set, here] using g.done.unused other beyond

instance : CudaRuntime QueuedCuda where
  start := { unused := fun _ _ => rfl }
  cudaMalloc := cudaMalloc
  cudaFree := cudaFree
  cudaMemcpyAsync := fun copy stream g => (none, { g with waiting := g.waiting ++ [(copy, stream)] })
  cudaStreamSynchronize := fun _ g => (none, g.done)
  host := fun g => g.memory.host
  ahead := ahead
  alone := fun stream g => ∀ copy ∈ g.waiting, copy.2 = stream
  start_blocks := fun _ => rfl
  start_alone := fun _ => nofun
  malloc_ok := by
    intro bytes pointer g after _ asked
    unfold cudaMalloc at asked
    split at asked
    · cases asked
    · cases asked
      exact ⟨g.done.unused g.next (Nat.le_refl _), _, List.length_replicate, rfl⟩
  malloc_error := by
    intro bytes reason g after asked
    unfold cudaMalloc at asked
    split at asked
    · cases asked
      rfl
    · cases asked
  malloc_alone := by
    intro stream bytes g quiet
    unfold cudaMalloc
    split
    · exact quiet
    · exact nofun
  free_ahead := fun _ => rfl
  free_alone := fun _ => nofun
  copy_ok := by
    rintro copy stream g after - - ⟨⟩
    simp [ahead]
  copy_error := by
    rintro copy stream reason g after - ⟨⟩
  copy_alone := by
    intro copy stream g quiet other member
    rcases List.mem_append.mp member with old | new
    · exact quiet other old
    · rw [List.mem_singleton.mp new]
  synchronize_ok := by
    rintro stream g after - ⟨⟩
    exact ⟨rfl, rfl⟩
  synchronize_error := by
    rintro stream reason g after ⟨⟩
  synchronize_alone := fun _ => nofun

end QueuedCuda

end VisionLab
