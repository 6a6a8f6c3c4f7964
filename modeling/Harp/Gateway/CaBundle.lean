import Harp.Gateway.TrustPolicy

/-
  Which certificates TLS trusts (`src/gateway/security/mtls.ts`) of a CA buffer that holds several
  (`enforceTrustPolicy`).

  `pem` gives the certificates of a buffer, in order. `X509Certificate` reads the first of them
  (`ReadsFirst`), while the `ca` option of TLS trusts them all. So the policy speaks for the
  trusted certificates exactly unless a later one is bad and the first is not (`trustsNoDev_iff`).
-/

namespace Harp

structure TlsOptions (β : Type) where
  cert : β
  key : β
  ca : β
  /-- Only a server sets it. -/
  requestCert : Option Bool
  rejectUnauthorized : Bool
  minVersion : String
  deriving DecidableEq, Repr

def serverTlsOptions {β : Type} (m : MtlsMaterial β) : TlsOptions β where
  cert := m.cert
  key := m.key
  ca := m.ca
  requestCert := some true
  rejectUnauthorized := true
  minVersion := "TLSv1.3"

def clientTlsOptions {β : Type} (m : MtlsMaterial β) : TlsOptions β where
  cert := m.cert
  key := m.key
  ca := m.ca
  requestCert := none
  rejectUnauthorized := true
  minVersion := "TLSv1.3"

namespace CertificateProvider

section

variable {β : Type} (host : Host β) (pem : β → List X509Certificate)

/-- `new X509Certificate(buf)` reads the first certificate of the buffer. -/
def ReadsFirst (buf : β) : Prop := ∀ x, host.x509 buf = .ok x ↔ (pem buf).head? = some x

/-- The authorities that TLS trusts under the options. -/
def authorities (options : TlsOptions β) : List X509Certificate := pem options.ca

/-- Free of the dev marker, and refused by no date. -/
def Presentable (x : X509Certificate) : Prop := marked x = false ∧ Unrefuted host x

/-- Every authority that a server or a client with this material trusts is presentable. -/
def TrustsNoDev (material : MtlsMaterial β) : Prop :=
  (∀ x ∈ authorities pem (serverTlsOptions material), Presentable host x) ∧
    ∀ x ∈ authorities pem (clientTlsOptions material), Presentable host x

theorem trustsNoDev_cons {material : MtlsMaterial β} {ca : X509Certificate}
    {later : List X509Certificate} (h : pem material.ca = ca :: later) :
    TrustsNoDev host pem material ↔ Presentable host ca ∧ ∀ x ∈ later, Presentable host x := by
  unfold TrustsNoDev authorities
  rw [show (serverTlsOptions material).ca = material.ca from rfl,
    show (clientTlsOptions material).ca = material.ca from rfl, and_self, h]
  exact List.forall_mem_cons

/-- In production the policy accepts what presents a leaf and a first authority that are both
    presentable. -/
theorem enforceTrustPolicy_production {material : MtlsMaterial β} {source : String}
    (hpem : ReadsFirst host pem material.ca) :
    enforceTrustPolicy host .production material source = .ok () ↔
      (∃ leaf, host.x509 material.cert = .ok leaf ∧ Presentable host leaf) ∧
        ∃ ca, (pem material.ca).head? = some ca ∧ Presentable host ca := by
  rw [enforceTrustPolicy_ok]
  constructor
  · rintro ⟨leaf, ca, ⟨hleaf, hca⟩, hleafDate, hcaDate, hmark⟩
    obtain ⟨hleafMark, hcaMark⟩ := hmark rfl
    exact ⟨⟨leaf, hleaf, hleafMark, hleafDate⟩, ca, (hpem ca).mp hca, hcaMark, hcaDate⟩
  · rintro ⟨⟨leaf, hleaf, hleafMark, hleafDate⟩, ca, hca, hcaMark, hcaDate⟩
    exact ⟨leaf, ca, ⟨hleaf, (hpem ca).mpr hca⟩, hleafDate, hcaDate, fun _ =>
      ⟨hleafMark, hcaMark⟩⟩

/-- What production accepts trusts no dev certificate and none outside its window exactly if the
    later authorities are presentable, or the leaf or the first authority is not. -/
theorem trustsNoDev_iff (material : MtlsMaterial β) (source : String)
    (hpem : ReadsFirst host pem material.ca) :
    (enforceTrustPolicy host .production material source = .ok () →
      TrustsNoDev host pem material) ↔
    (∀ x ∈ (pem material.ca).tail, Presentable host x) ∨
      (∀ leaf, host.x509 material.cert = .ok leaf → ¬ Presentable host leaf) ∨
      ∀ ca, (pem material.ca).head? = some ca → ¬ Presentable host ca := by
  rw [enforceTrustPolicy_production host pem hpem]
  cases h : pem material.ca with
  | nil =>
    -- no authority, no trust
    refine iff_of_true ?_ (.inl (by simp))
    rintro ⟨-, ca, hca, -⟩
    cases hca
  | cons ca later =>
    rw [trustsNoDev_cons host pem h]
    constructor
    · intro himp
      by_contra hnot
      rw [not_or, not_or] at hnot
      obtain ⟨hlater, hleaf, hca⟩ := hnot
      push Not at hleaf hca
      obtain ⟨leaf, hleaf⟩ := hleaf
      exact hlater (himp ⟨⟨leaf, hleaf⟩, hca⟩).2
    · rintro (hlater | hleaf | hca)
      · rintro ⟨-, first, hfirst, hok⟩
        obtain rfl := Option.some.inj hfirst
        exact ⟨hok, hlater⟩
      · rintro ⟨⟨leaf, hparsed, hok⟩, -⟩
        exact absurd hok (hleaf leaf hparsed)
      · rintro ⟨-, first, hfirst, hok⟩
        exact absurd hok (hca first hfirst)

end

/-! ## A bundle with a dev certificate -/

/-- A party whose buffers are lists of certificates. -/
def bundleHost : Host (List X509Certificate) where
  env _ := none
  readFileSync _ := .error ⟨"ENOENT: no such file or directory"⟩
  x509 buf := match buf with
    | x :: _ => .ok x
    | [] => .error ⟨"error:0480006C:PEM routines::no start line"⟩
  dateParse date :=
    if date = "Jan  1 00:00:00 2026 GMT" then some 1767225600000
    else if date = "Jan  1 00:00:00 2027 GMT" then some 1798761600000
    else none
  now := 1780000000000

def realCertificate : X509Certificate where
  subject := some "CN=Internal CA"
  issuer := some "CN=Internal CA"
  validFrom := "Jan  1 00:00:00 2026 GMT"
  validTo := "Jan  1 00:00:00 2027 GMT"

def devCertificate : X509Certificate where
  subject := some "CN=DEV-CERT-DO-NOT-USE-IN-PRODUCTION"
  issuer := some "CN=DEV-CERT-DO-NOT-USE-IN-PRODUCTION"
  validFrom := "Jan  1 00:00:00 2026 GMT"
  validTo := "Jan  1 00:00:00 2027 GMT"

/-- The dev CA behind a real one. -/
def bundle : MtlsMaterial (List X509Certificate) where
  cert := [realCertificate]
  key := []
  ca := [realCertificate, devCertificate]

theorem bundleHost_readsFirst (buf : List X509Certificate) : ReadsFirst bundleHost id buf := by
  intro x
  cases buf with
  | nil => simp [bundleHost]
  | cons y ys => simp [bundleHost]

theorem trustsNoDev_iff_bundle :
    (enforceTrustPolicy bundleHost .production bundle "file" = .ok () →
      TrustsNoDev bundleHost id bundle) ↔
    (∀ x ∈ bundle.ca.tail, Presentable bundleHost x) ∨
      (∀ leaf, bundleHost.x509 bundle.cert = .ok leaf → ¬ Presentable bundleHost leaf) ∨
      ∀ ca, bundle.ca.head? = some ca → ¬ Presentable bundleHost ca :=
  trustsNoDev_iff bundleHost id bundle "file" (bundleHost_readsFirst bundle.ca)

/-- Production accepts the bundle, and then trusts the dev CA in it. -/
theorem bundled_dev_trusted : ReadsFirst bundleHost id bundle.ca ∧
    enforceTrustPolicy bundleHost .production bundle "file" = .ok () ∧
    devCertificate ∈ authorities id (serverTlsOptions bundle) ∧ marked devCertificate = true ∧
    ¬ TrustsNoDev bundleHost id bundle := by
  refine ⟨bundleHost_readsFirst bundle.ca, by decide, by decide, by decide, fun h => ?_⟩
  have hdev := (h.1 devCertificate (by decide)).1
  exact absurd hdev (by decide)

end CertificateProvider

end Harp
