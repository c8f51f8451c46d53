/-
# Diagnostics and limits of the strict profile

The diagnostic codes of `grain-core` (`error.rs`) and the bounds that every strict
implementation applies (`limits.rs`).
-/
import GrainProtocol.Lib.Utf8

namespace Grain

/-! ## Diagnostics -/

/-- The diagnostics that an operation can reject with or report. -/
inductive Diag where
  | nonCanonical
  | dupMapKey
  | setArrayOrder
  | setArrayDup
  | tagForbidden
  | unknownTopLevelKey
  | badCidLink
  | coseProfile
  | coseTag18Forbidden
  | schema
  | e2eInputLength
  | e2eBadLabel
  | aeadAuth
  | manifestOp
  | qrPrefix
  | cborseqTruncated
  | cborseqGarbageTail
  | cborseqInvalidInitialByte
  | limit
  | overflow
  | seqConflict
  | akRevoked
  | unauthorizedGrantIgnored
  | capChashConflict
  | capIdOverwrite
  | chashMismatch
  | nonceProfileMismatch
  deriving DecidableEq, Repr

/-- The stable code of a diagnostic. -/
def Diag.code : Diag → String
  | .nonCanonical => "GRAIN_ERR_NONCANONICAL"
  | .dupMapKey => "GRAIN_ERR_DUP_MAP_KEY"
  | .setArrayOrder => "GRAIN_ERR_SET_ARRAY_ORDER"
  | .setArrayDup => "GRAIN_ERR_SET_ARRAY_DUP"
  | .tagForbidden => "GRAIN_ERR_TAG_FORBIDDEN"
  | .unknownTopLevelKey => "GRAIN_ERR_UNKNOWN_TOPLEVEL_KEY"
  | .badCidLink => "GRAIN_ERR_BAD_CID_LINK"
  | .coseProfile => "GRAIN_ERR_COSE_PROFILE"
  | .coseTag18Forbidden => "GRAIN_ERR_COSE_TAG18_FORBIDDEN"
  | .schema => "GRAIN_ERR_SCHEMA"
  | .e2eInputLength => "GRAIN_ERR_E2E_INPUT_LENGTH"
  | .e2eBadLabel => "GRAIN_ERR_E2E_BAD_LABEL"
  | .aeadAuth => "GRAIN_ERR_AEAD_AUTH"
  | .manifestOp => "GRAIN_ERR_MANIFEST_OP"
  | .qrPrefix => "GRAIN_ERR_QR_PREFIX"
  | .cborseqTruncated => "GRAIN_ERR_CBORSEQ_TRUNCATED"
  | .cborseqGarbageTail => "GRAIN_ERR_CBORSEQ_GARBAGE_TAIL"
  | .cborseqInvalidInitialByte => "GRAIN_ERR_CBORSEQ_INVALID_INITIAL_BYTE"
  | .limit => "GRAIN_ERR_LIMIT"
  | .overflow => "GRAIN_ERR_OVERFLOW"
  | .seqConflict => "SEQ_CONFLICT"
  | .akRevoked => "AK_REVOKED"
  | .unauthorizedGrantIgnored => "UNAUTHORIZED_GRANT_IGNORED"
  | .capChashConflict => "CAP_CHASH_CONFLICT"
  | .capIdOverwrite => "CAP_ID_OVERWRITE"
  | .chashMismatch => "CHASH_MISMATCH"
  | .nonceProfileMismatch => "NONCE_PROFILE_MISMATCH"

/-- A core operation's outcome: a value, or the diagnostic of its rejection. -/
abbrev GrainResult (α : Type) := Except Diag α

/-! ## Limits -/

/-- The bounds of a validation profile. -/
structure Limits where
  maxCborNestingDepth : ℕ
  maxCborMapPairs : ℕ
  maxCborArrayLength : ℕ
  maxTstrUtf8Bytes : ℕ
  maxDagcborObjectBytes : ℕ
  maxExtCanonicalBytes : ℕ
  maxCritEntries : ℕ
  maxCritTotalUtf8Bytes : ℕ
  maxLedgerEventPayloadBytes : ℕ
  maxManifestRecordPayloadBytes : ℕ
  maxServingofferPayloadBytes : ℕ
  maxE2eCiphertextBytes : ℕ
  maxCborseqSegmentBytes : ℕ
  maxCborseqSegmentItems : ℕ
  deriving Repr

/-- `Limits::STRICT_BASELINE`. -/
def strictBaseline : Limits where
  maxCborNestingDepth := 32
  maxCborMapPairs := 4096
  maxCborArrayLength := 4096
  maxTstrUtf8Bytes := 1024
  maxDagcborObjectBytes := 5000000
  maxExtCanonicalBytes := 65536
  maxCritEntries := 64
  maxCritTotalUtf8Bytes := 4096
  maxLedgerEventPayloadBytes := 32768
  maxManifestRecordPayloadBytes := 8192
  maxServingofferPayloadBytes := 2048
  maxE2eCiphertextBytes := 8000000
  maxCborseqSegmentBytes := 64000000
  maxCborseqSegmentItems := 1000000

end Grain
