import SecretBroker.AtomicIssuance
import SecretBroker.AuditLineage
import SecretBroker.Broker
import SecretBroker.BrokerFrame
import SecretBroker.CanonicalWire
import SecretBroker.Caveat
import SecretBroker.Completeness
import SecretBroker.CompletenessCrypto
import SecretBroker.CompletenessCustody
import SecretBroker.CompletenessDischarge
import SecretBroker.CompletenessLease
import SecretBroker.CompletenessWire
import SecretBroker.ConcurrencyRedeem
import SecretBroker.ConcurrencyStore
import SecretBroker.ConcurrencyTransparency
import SecretBroker.CryptoEngine
import SecretBroker.CryptoLaws
import SecretBroker.CryptoService
import SecretBroker.Custody
import SecretBroker.Identity
import SecretBroker.IdentityBinding
import SecretBroker.Issuance
import SecretBroker.IssuanceLimits
import SecretBroker.KeyTable
import SecretBroker.LibBase64
import SecretBroker.LibCoupling
import SecretBroker.LibEffect
import SecretBroker.LibLock
import SecretBroker.LibLog
import SecretBroker.LibRegister
import SecretBroker.LibSymbolic
import SecretBroker.Macaroon
import SecretBroker.MacaroonWire
import SecretBroker.Management
import SecretBroker.Record
import SecretBroker.RecordLifetime
import SecretBroker.RedemptionSpec
import SecretBroker.Run
import SecretBroker.SealedSecret
import SecretBroker.SealedStore
import SecretBroker.SecurityAttenuation
import SecretBroker.SecurityCustody
import SecretBroker.SecurityDischarge
import SecretBroker.SecurityForged
import SecretBroker.SecurityMaxUses
import SecretBroker.SecurityRedemption
import SecretBroker.SecurityRefusal
import SecretBroker.SecurityUnforgeable
import SecretBroker.Server
import SecretBroker.ThresholdCorrectness
import SecretBroker.ThresholdSecurity
import SecretBroker.TransparencyChain
import SecretBroker.TransparencyLog
import SecretBroker.Values
import SecretBroker.KeyRotation
import SecretBroker.KeyReplacement
import SecretBroker.ConcurrencyKeys
import SecretBroker.KeyCapacity
import SecretBroker.LibTransaction
import SecretBroker.PostgresLease
import SecretBroker.PostgresTracking
import SecretBroker.Attestation
import SecretBroker.ClientPolicy
import SecretBroker.SecurityAttestation
import SecretBroker.ClientLibrary
import SecretBroker.SpiffeIdentity
import SecretBroker.CompletenessClient
import SecretBroker.LibSql
import SecretBroker.PostgresNames
import SecretBroker.SecurityDigest
import SecretBroker.SecurityHmac
import SecretBroker.ClientCache
import SecretBroker.LibLockSystem
import SecretBroker.LibRely
import SecretBroker.SigningKeys
import SecretBroker.ConcurrencySigning
import SecretBroker.LibRegisterRefine
import SecretBroker.MasterKeyFile
import SecretBroker.JsonText
import SecretBroker.RecordJson
import SecretBroker.SealedDisk
import SecretBroker.Restart
import SecretBroker.SecurityPlaintext
import SecretBroker.CompletenessThreshold
import SecretBroker.LibDouble
