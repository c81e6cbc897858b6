import Mathlib.Data.Int.Notation

/-! Where and how a model runs. -/
namespace VisionLab

/- The settings reach these enumerations by a cast of an arbitrary integer to one byte, and some
bytes have no name. -/

inductive InferenceBackend where
  | onnxRuntimeCpu | onnxRuntimeCuda | tensorRT | unnamed (code : BitVec 8)
  deriving DecidableEq, Repr

inductive InferencePrecision where
  | fp32 | fp16 | int8 | unnamed (code : BitVec 8)
  deriving DecidableEq, Repr

def InferenceBackend.ofInt (value : ℤ) : InferenceBackend :=
  match value % 256 with
  | 0 => .onnxRuntimeCpu
  | 1 => .onnxRuntimeCuda
  | 2 => .tensorRT
  | _ => .unnamed (BitVec.ofInt 8 value)

def InferencePrecision.ofInt (value : ℤ) : InferencePrecision :=
  match value % 256 with
  | 0 => .fp32
  | 1 => .fp16
  | 2 => .int8
  | _ => .unnamed (BitVec.ofInt 8 value)

structure InferenceSelection where
  backend : InferenceBackend := .onnxRuntimeCpu
  precision : InferencePrecision := .fp32
  deviceId : ℤ := 0
  deriving DecidableEq, Repr

end VisionLab
