import ComputeKernel.Device.Handle
import ComputeKernel.Resource.Capability

/-!
# Failures

Why a call did not do its work: a fault of the caller, a refusal of the device, or a mistake in how
a kernel is declared, bound or dispatched (`DispatchError`). The texts are in `message`.
-/

namespace ComputeKernel

/-- A mistake in how a kernel is declared, bound or dispatched. -/
inductive DispatchError where
  /-- There is no entry point with this ordinal. -/
  | unknownEntry (ordinal count : Nat)
  | undeclaredSlot (entry slot : String)
  | unboundTexture (entry slot : String)
  /-- A resource of another kind or element type than the slot accepts. No slot accepts nothing:
  that is a resource bound under a name that is not declared. -/
  | capability (slot : String) (expected : Option Capability) (found : Capability)
  | noDevice
  /-- The device numbers the entry points in another way than the kernel. -/
  | entryMismatch (entry : String) (ordinal : Nat) (device : DeviceKind) (reported : Option Nat)
  | unknownSource
  | gridOverflow (entry : String) (extent groups : Uint3)
  | duplicateEntry (name : String)
  | duplicateSlot (name : String)
  | zeroExtent (entry : String) (extent : Uint3)
deriving DecidableEq, Repr, Inhabited

namespace DispatchError

/-- An optional ordinal as it stands in messages. -/
def ordinalText : Option Nat → String
  | none => "None"
  | some n => "Some(" ++ toString n ++ ")"

/-- The mistake in words. -/
def message : DispatchError → String
  | .unknownEntry ordinal count =>
    "no entry point with ordinal " ++ toString ordinal ++ " (" ++ toString count ++ " registered)"
  | .undeclaredSlot entry slot =>
    "entry point `" ++ entry ++ "`: slot `" ++ slot ++ "` is not declared"
  | .unboundTexture entry slot =>
    "entry point `" ++ entry ++ "`: slot `" ++ slot ++ "` has no texture bound"
  | .capability slot expected found =>
    "slot `" ++ slot ++ "` expects " ++ (expected.map Capability.text).getD "nothing" ++
      ", got " ++ found.text
  | .noDevice => "no hardware backend attached"
  | .entryMismatch entry ordinal device reported =>
    "entry point `" ++ entry ++ "` is registered as ordinal " ++ toString ordinal ++ " but the "
      ++ device.name ++ " backend reports " ++ ordinalText reported
  | .unknownSource => "dispatcher has no source path; attach one with `with_source`"
  | .gridOverflow entry extent groups =>
    "dispatch grid of `" ++ entry ++ "` overflows: extent " ++ extent.text ++
      " x groups " ++ groups.text
  | .duplicateEntry name => "entry point `" ++ name ++ "` registered twice"
  | .duplicateSlot name => "slot `" ++ name ++ "` registered twice"
  | .zeroExtent entry extent =>
    "entry point `" ++ entry ++ "` has a zero thread-group extent " ++ extent.text

end DispatchError

/-- Why a call did not do its work. -/
inductive Failure where
  | fault (fault : Fault)
  | device (error : DeviceError)
  | dispatch (error : DispatchError)
deriving DecidableEq, Repr, Inhabited

/-- The failure in words. -/
def Failure.message : Failure → String
  | .fault f => f.message
  | .device e => e.message
  | .dispatch e => e.message

instance : Coe Fault Failure := ⟨.fault⟩

instance : Coe DeviceError Failure := ⟨.device⟩

instance : Coe DispatchError Failure := ⟨.dispatch⟩

end ComputeKernel
