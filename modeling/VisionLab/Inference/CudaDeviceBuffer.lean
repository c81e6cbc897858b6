import Mathlib.Data.Nat.Notation
import Mathlib.Logic.Function.Basic
import VisionLab.Lib.Machine

/-! Device memory in C++ objects. A buffer owns a block that `cudaMalloc` gave it, may pass it on,
and frees it in the end; its copies only wait on a stream when the calls return. To free a block
twice, or to copy to one that is not there or is too small, is a fault here; and what the objects do
together is compared with a store of plain values. -/
namespace VisionLab

abbrev Byte := BitVec 8

abbrev CudaStream := ℕ

/-- The blocks of device memory that are allocated, and the bytes at each place of the host. -/
structure CudaMemory where
  blocks : ℕ → Option (List Byte) := fun _ => none
  host : ℕ → List Byte := fun _ => []

/-- The bytes that go to the device are read from `src` while the copy waits; the caller leaves them
as they are. -/
inductive CudaCopy where
  | hostToDevice (pointer : ℕ) (src : List Byte)
  | deviceToHost (dst pointer bytes : ℕ)

namespace CudaCopy

def pointer : CudaCopy → ℕ
  | hostToDevice pointer _ => pointer
  | deviceToHost _ pointer _ => pointer

def bytes : CudaCopy → ℕ
  | hostToDevice _ src => src.length
  | deviceToHost _ _ bytes => bytes

end CudaCopy

namespace CudaMemory

def set (pointer : ℕ) (block : Option (List Byte)) (m : CudaMemory) : CudaMemory :=
  { m with blocks := Function.update m.blocks pointer block }

def copied (m : CudaMemory) : CudaCopy → CudaMemory
  | .hostToDevice pointer src =>
    m.set pointer ((m.blocks pointer).map (fun block => src ++ block.drop src.length))
  | .deviceToHost dst pointer bytes =>
    { m with host := Function.update m.host dst (((m.blocks pointer).getD []).take bytes) }

def Allows (m : CudaMemory) (copy : CudaCopy) : Prop :=
  ∃ block, m.blocks copy.pointer = some block ∧ copy.bytes ≤ block.length

/-- The same blocks with the same sizes, whatever is in them. -/
def Alike (m after : CudaMemory) : Prop :=
  ∀ pointer, (after.blocks pointer).map List.length = (m.blocks pointer).map List.length

end CudaMemory

/-- The CUDA runtime, as far as it is documented. Copies wait on their streams: `host` is what the
program finds in its memory now, `ahead` is what there is once all that waits has been done, and a
stream is alone if no other one has anything waiting. A call answers with the text of its error. An
allocation that is refused changes nothing; a copy or a synchronisation that fails may have lost the
contents of the blocks, but no block. -/
class CudaRuntime (G : Type) where
  start : G
  cudaMalloc : ℕ → G → Except String ℕ × G
  cudaFree : ℕ → G → G
  cudaMemcpyAsync : CudaCopy → CudaStream → G → Option String × G
  cudaStreamSynchronize : CudaStream → G → Option String × G
  host : G → ℕ → List Byte
  ahead : G → CudaMemory
  alone : CudaStream → G → Prop
  start_blocks : ∀ pointer, (ahead start).blocks pointer = none
  start_alone : ∀ stream, alone stream start
  malloc_ok : ∀ {bytes pointer g after}, 0 < bytes → cudaMalloc bytes g = (.ok pointer, after) →
    (ahead g).blocks pointer = none ∧
      ∃ block, block.length = bytes ∧ ahead after = (ahead g).set pointer (some block)
  malloc_error : ∀ {bytes reason g after}, cudaMalloc bytes g = (.error reason, after) →
    ahead after = ahead g
  malloc_alone : ∀ {stream bytes g}, alone stream g → alone stream (cudaMalloc bytes g).2
  free_ahead : ∀ {pointer g}, (ahead g).blocks pointer ≠ none →
    ahead (cudaFree pointer g) = (ahead g).set pointer none
  free_alone : ∀ {stream pointer g}, alone stream g → alone stream (cudaFree pointer g)
  copy_ok : ∀ {copy stream g after}, alone stream g → (ahead g).Allows copy →
    cudaMemcpyAsync copy stream g = (none, after) → ahead after = (ahead g).copied copy
  copy_error : ∀ {copy stream reason g after}, (ahead g).Allows copy →
    cudaMemcpyAsync copy stream g = (some reason, after) → (ahead g).Alike (ahead after)
  copy_alone : ∀ {copy stream g}, alone stream g → alone stream (cudaMemcpyAsync copy stream g).2
  synchronize_ok : ∀ {stream g after}, alone stream g →
    cudaStreamSynchronize stream g = (none, after) →
      ahead after = ahead g ∧ host after = (ahead g).host
  synchronize_error : ∀ {stream reason g after},
    cudaStreamSynchronize stream g = (some reason, after) → (ahead g).Alike (ahead after)
  synchronize_alone : ∀ {stream g}, alone stream g → alone stream (cudaStreamSynchronize stream g).2

/-- A call that the CUDA runtime must not get. -/
inductive CudaFault where
  | free (pointer : ℕ)
  | copy (pointer : ℕ)
  deriving DecidableEq, Repr

section

variable {G : Type} [CudaRuntime G]

def cudaFree (pointer : ℕ) (gpu : G) : Except CudaFault G :=
  match (CudaRuntime.ahead gpu).blocks pointer with
  | none => .error (.free pointer)
  | some _ => .ok (CudaRuntime.cudaFree pointer gpu)

def cudaMemcpyAsync (copy : CudaCopy) (stream : CudaStream) (gpu : G) :
    Except CudaFault (Option String × G) :=
  match (CudaRuntime.ahead gpu).blocks copy.pointer with
  | none => .error (.copy copy.pointer)
  | some block =>
    if block.length < copy.bytes then .error (.copy copy.pointer)
    else .ok (CudaRuntime.cudaMemcpyAsync copy stream gpu)

end

/-- `device` is the pointer, `none` where it is null. -/
structure CudaDeviceBuffer where
  device : Option ℕ := none
  bytes : ℕ := 0
  error : String := ""
  deriving DecidableEq, Repr

namespace CudaDeviceBuffer

variable {G : Type} [CudaRuntime G]

def new (bytes : ℕ) (gpu : G) : CudaDeviceBuffer × G :=
  if bytes = 0 then ({ bytes := bytes, error := "CudaDeviceBuffer size must be > 0" }, gpu)
  else
    match CudaRuntime.cudaMalloc bytes gpu with
    | (.error reason, gpu) => ({ device := none, bytes := 0, error := reason }, gpu)
    | (.ok pointer, gpu) => ({ device := some pointer, bytes := bytes }, gpu)

def valid (b : CudaDeviceBuffer) : Bool := b.device.isSome

def destroy (b : CudaDeviceBuffer) (gpu : G) : Except CudaFault (CudaDeviceBuffer × G) :=
  match b.device with
  | none => .ok (b, gpu)
  | some pointer =>
    match cudaFree pointer gpu with
    | .error fault => .error fault
    | .ok gpu => .ok ({ b with device := none, bytes := 0 }, gpu)

/-- The move constructor: the new object, and what becomes of the other one. -/
def moved (other : CudaDeviceBuffer) : CudaDeviceBuffer × CudaDeviceBuffer :=
  ({ device := other.device, bytes := other.bytes, error := other.error },
    { device := none, bytes := 0, error := "" })

def assign (b other : CudaDeviceBuffer) (gpu : G) :
    Except CudaFault (CudaDeviceBuffer × CudaDeviceBuffer × G) :=
  match b.destroy gpu with
  | .error fault => .error fault
  | .ok (_, gpu) => .ok (other.moved.1, other.moved.2, gpu)

def checkSize (bytes : ℕ) (b : CudaDeviceBuffer) : Bool × CudaDeviceBuffer :=
  if !b.valid then
    (false, if b.error.isEmpty then { b with error := "CudaDeviceBuffer is not valid" } else b)
  else if bytes ≠ b.bytes then (false, { b with error := "copy size does not match buffer" })
  else (true, b)

def enqueue (copy : CudaCopy) (stream : CudaStream) (b : CudaDeviceBuffer) (gpu : G) :
    Except CudaFault (Bool × CudaDeviceBuffer × G) :=
  match cudaMemcpyAsync copy stream gpu with
  | .error fault => .error fault
  | .ok (some reason, gpu) => .ok (false, { b with error := reason }, gpu)
  | .ok (none, gpu) => .ok (true, { b with error := "" }, gpu)

/-- `src` is the host memory, `none` where it is null. -/
def copyFromHost (src : Option (List Byte)) (bytes : ℕ) (stream : CudaStream)
    (b : CudaDeviceBuffer) (gpu : G) : Except CudaFault (Bool × CudaDeviceBuffer × G) :=
  match b.checkSize bytes, src with
  | (_, b), none => .ok (false, { b with error := "copyFromHost src is null" }, gpu)
  | (false, b), some _ => .ok (false, b, gpu)
  | (true, b), some src =>
    b.enqueue (.hostToDevice (b.device.getD 0) (src.take bytes)) stream gpu

/-- `dst` is the place of the host memory, `none` where it is null. -/
def copyToHost (dst : Option ℕ) (bytes : ℕ) (stream : CudaStream) (b : CudaDeviceBuffer)
    (gpu : G) : Except CudaFault (Bool × CudaDeviceBuffer × G) :=
  match b.checkSize bytes, dst with
  | (_, b), none => .ok (false, { b with error := "copyToHost dst is null" }, gpu)
  | (false, b), some _ => .ok (false, b, gpu)
  | (true, b), some dst => b.enqueue (.deviceToHost dst (b.device.getD 0) bytes) stream gpu

end CudaDeviceBuffer

/-- The runtime and the objects of a program, each under the name of its place. -/
structure CudaProgram (G : Type) where
  gpu : G
  objects : ℕ → Option CudaDeviceBuffer := fun _ => none

/-- A call of the program; once it has waited for a stream it reads the host memory. -/
inductive BufferCall where
  | construct (n bytes : ℕ)
  | moveConstruct (dst src : ℕ)
  | moveAssign (dst src : ℕ)
  | destroy (n : ℕ)
  | copyFromHost (n : ℕ) (src : Option (List Byte)) (bytes : ℕ) (stream : CudaStream)
  | copyToHost (n : ℕ) (dst : Option ℕ) (bytes : ℕ) (stream : CudaStream)
  | synchronize (stream : CudaStream) (places : List ℕ)

/-- What the caller gets: whether the new object is valid, whether the copy was taken, the bytes at
its places. -/
inductive BufferAnswer where
  | done
  | constructed (valid : Bool)
  | copied (ok : Bool)
  | synchronized (host : Option (List (List Byte)))
  deriving DecidableEq, Repr

namespace CudaProgram

variable {G : Type} [CudaRuntime G]

/- A call on a place where there is no object is no program; it does nothing here. -/

def put (n : ℕ) (left : Option CudaDeviceBuffer) (gpu : G) (w : CudaProgram G) : CudaProgram G where
  gpu := gpu
  objects := Function.update w.objects n left

def place (dst src : ℕ) (b other : CudaDeviceBuffer) (gpu : G) (w : CudaProgram G) :
    CudaProgram G :=
  (w.put dst (some b) gpu).put src (some other) gpu

def construct (n bytes : ℕ) (w : CudaProgram G) : Bool × CudaProgram G :=
  match CudaDeviceBuffer.new bytes w.gpu with
  | (b, gpu) => (b.valid, w.put n (some b) gpu)

def moveAssign (dst src : ℕ) (w : CudaProgram G) : Except CudaFault (CudaProgram G) :=
  if dst = src then .ok w
  else
    match w.objects dst, w.objects src with
    | some b, some other =>
      match b.assign other w.gpu with
      | .error fault => .error fault
      | .ok (b, other, gpu) => .ok (w.place dst src b other gpu)
    | _, _ => .ok w

def destroy (n : ℕ) (w : CudaProgram G) : Except CudaFault (CudaProgram G) :=
  match w.objects n with
  | none => .ok w
  | some b =>
    match b.destroy w.gpu with
    | .error fault => .error fault
    | .ok (_, gpu) => .ok (w.put n none gpu)

def copy (n : ℕ)
    (call : CudaDeviceBuffer → G → Except CudaFault (Bool × CudaDeviceBuffer × G))
    (w : CudaProgram G) : Except CudaFault (BufferAnswer × CudaProgram G) :=
  match w.objects n with
  | none => .ok (.done, w)
  | some b =>
    match call b w.gpu with
    | .error fault => .error fault
    | .ok (ok, b, gpu) => .ok (.copied ok, w.put n (some b) gpu)

def synchronize (stream : CudaStream) (places : List ℕ) (w : CudaProgram G) :
    BufferAnswer × CudaProgram G :=
  match CudaRuntime.cudaStreamSynchronize stream w.gpu with
  | (some _, gpu) => (.synchronized none, { w with gpu := gpu })
  | (none, gpu) =>
    (.synchronized (some (places.map (CudaRuntime.host gpu))), { w with gpu := gpu })

def step (w : CudaProgram G) : BufferCall → Except CudaFault (BufferAnswer × CudaProgram G)
  | .construct n bytes => .ok (.constructed (w.construct n bytes).1, (w.construct n bytes).2)
  | .moveConstruct dst src =>
    match w.objects src with
    | none => .ok (.done, w)
    | some other => .ok (.done, w.place dst src other.moved.1 other.moved.2 w.gpu)
  | .moveAssign dst src => (w.moveAssign dst src).map (fun w => (.done, w))
  | .destroy n => (w.destroy n).map (fun w => (.done, w))
  | .copyFromHost n src bytes stream => w.copy n (CudaDeviceBuffer.copyFromHost src bytes stream)
  | .copyToHost n dst bytes stream => w.copy n (CudaDeviceBuffer.copyToHost dst bytes stream)
  | .synchronize stream places => .ok (w.synchronize stream places)

def run (w : CudaProgram G) :
    List BufferCall → Except CudaFault (List BufferAnswer × CudaProgram G)
  | [] => .ok ([], w)
  | call :: calls =>
    match w.step call with
    | .error fault => .error fault
    | .ok (answer, after) => (after.run calls).map (fun rest => (answer :: rest.1, rest.2))

end CudaProgram

namespace BufferCall

/-- What the language asks of a call, where `now` says at which places there is an object: it is
made where there is none and used where there is one, and the host memory is as large as the caller
says. All copies go to one stream, and that is the one the caller waits for. -/
def Legal (stream : CudaStream) (now : ℕ → Bool) : BufferCall → Prop
  | construct n _ => now n = false
  | moveConstruct dst src => now dst = false ∧ now src = true
  | moveAssign dst src => now dst = true ∧ now src = true
  | destroy n => now n = true
  | copyFromHost n src bytes on => now n = true ∧ on = stream ∧ ∀ data ∈ src, bytes ≤ data.length
  | copyToHost n _ _ on => now n = true ∧ on = stream
  | synchronize on _ => on = stream

instance decidableLegal {stream : CudaStream} {now : ℕ → Bool} :
    (call : BufferCall) → Decidable (Legal stream now call)
  | construct n _ => inferInstanceAs (Decidable (now n = false))
  | moveConstruct _ _ | moveAssign _ _ => inferInstanceAs (Decidable (_ ∧ _))
  | destroy n => inferInstanceAs (Decidable (now n = true))
  | copyFromHost n src bytes on =>
    inferInstanceAs (Decidable (now n = true ∧ on = stream ∧ ∀ data ∈ src, bytes ≤ data.length))
  | copyToHost _ _ _ _ => inferInstanceAs (Decidable (_ ∧ _))
  | synchronize on _ => inferInstanceAs (Decidable (on = stream))

def present (now : ℕ → Bool) : BufferCall → ℕ → Bool
  | construct n _ => Function.update now n true
  | moveConstruct dst _ => Function.update now dst true
  | destroy n => Function.update now n false
  | _ => now

abbrev Lawful (stream : CudaStream) (now : ℕ → Bool) (calls : List BufferCall) : Prop :=
  Machine.EveryStep (fun now call => call.present now) (fun now call => call.Legal stream now) now
    calls

end BufferCall

end VisionLab
