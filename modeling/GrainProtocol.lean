import GrainProtocol.Core.LedgerMeaning
import GrainProtocol.SignedFood.Meal
import GrainProtocol.SignedFood.Crowded
import GrainProtocol.SignedFood.Honest
import GrainProtocol.SignedFood.Reimport
import GrainProtocol.Issuer.Scan
import GrainProtocol.Core.TypedExact
import GrainProtocol.Core.Cborseq
import GrainProtocol.SignedFood.EventCid
import GrainProtocol.SignedFood.ReadOnly
import GrainProtocol.SignedFood.Completable
import GrainProtocol.Ts.ChecksAgree
import GrainProtocol.Client.HighWater
import GrainProtocol.Client.Atomic
import GrainProtocol.Sdk.Interleaved
import GrainProtocol.Sdk.Manifest
import GrainProtocol.Sdk.E2e
import GrainProtocol.Ts.Cborseq
import GrainProtocol.Ts.Cose
import GrainProtocol.Ts.TypedVerdict
import GrainProtocol.Sdk.Export
import GrainProtocol.Ts.Cid
import GrainProtocol.Ts.Base45
import GrainProtocol.Ai.TokenRegistry
import GrainProtocol.Ai.Conversions
import GrainProtocol.Swift.CrashConsistent
import GrainProtocol.Swift.FoodWallet
import GrainProtocol.SignedFood.Handed
import GrainProtocol.Core.StrictEd25519
import GrainProtocol.Ts.ExactJson
import GrainProtocol.Ts.ManifestAgree
import GrainProtocol.Ts.LedgerAgree
import GrainProtocol.Sdk.E2eCores
import GrainProtocol.Sdk.TransferKeys
import GrainProtocol.Sdk.Transport
import GrainProtocol.Sdk.ExportCores
import GrainProtocol.Ts.StrictCodec
import GrainProtocol.Runner.Verdicts
