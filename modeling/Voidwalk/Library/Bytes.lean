import Mathlib.Tactic.Common

/-!
Bytes, which are few enough for a property to be decided of all of them.
-/

namespace Voidwalk.Library.Bytes

/-- A property of all 256 bytes. -/
theorem forall_byte {Q : UInt8 → Prop} (h : ∀ i : Fin 256, Q (UInt8.ofNat i)) (byte : UInt8) :
    Q byte := by
  have hbyte := h ⟨byte.toNat, byte.toNat_lt⟩
  rwa [UInt8.ofNat_toNat] at hbyte

end Voidwalk.Library.Bytes
