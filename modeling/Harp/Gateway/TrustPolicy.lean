import Harp.Gateway.CertificateProvider

/-
  Which mTLS material a party starts with (`provideMtlsMaterial`, `enforceTrustPolicy`).

  The claim of the code is to fail closed: only material that is in its validity window, and free of
  the dev marker in production, is handed out (`FailsClosed`). Each guard holds, except that a
  date which cannot be read is compared with nothing. So the startup fails closed exactly
  unless such a date is the only thing wrong (`failsClosed_iff`).
-/

namespace Harp

namespace CertificateProvider

/-! ## What the guards let through -/

/-- Only the policy's own error is thrown. -/
def PolicyErrors {α : Type} (r : Except StartupError α) : Prop :=
  ∀ e, r = .error e → ∃ message, e = .certificatePolicy message

theorem PolicyErrors.ok {α : Type} (a : α) : PolicyErrors (.ok a) := by
  intro e h
  cases h

theorem PolicyErrors.error {α : Type} (message : String) :
    PolicyErrors (.error (.certificatePolicy message) : Except StartupError α) := by
  intro e h
  exact ⟨message, (Except.error.inj h).symm⟩

theorem PolicyErrors.bind {α γ : Type} {r : Except StartupError α}
    {f : α → Except StartupError γ} (hr : PolicyErrors r) (hf : ∀ a, PolicyErrors (f a)) :
    PolicyErrors (r >>= f) := by
  intro e h
  cases r with
  | error e' =>
    obtain rfl := Except.error.inj h
    exact hr e' rfl
  | ok a => exact hf a e h

theorem bind_eq_ok {ε α γ : Type} {r : Except ε α} {f : α → Except ε γ} {c : γ} :
    r >>= f = .ok c ↔ ∃ a, r = .ok a ∧ f a = .ok c := by
  cases r with
  | error e => simp [bind, Except.bind]
  | ok a => simp [bind, Except.bind]

section

variable {β : Type} (host : Host β)

theorem resolveDeploymentMode_policy : PolicyErrors (resolveDeploymentMode host) := by
  unfold resolveDeploymentMode
  split
  · exact .ok _
  · split
    · exact .ok _
    · exact .error _

theorem resolveDeploymentMode_ok (mode : DeploymentMode) :
    resolveDeploymentMode host = .ok mode ↔ rawMode host = mode.text := by
  unfold resolveDeploymentMode
  cases mode with
  | production =>
    by_cases h : rawMode host = "production"
    · simp [h, DeploymentMode.text]
    · by_cases h' : rawMode host = "development" <;> simp [h, h', DeploymentMode.text]
  | development =>
    by_cases h : rawMode host = "production"
    · simp [h, DeploymentMode.text]
    · by_cases h' : rawMode host = "development" <;> simp [h, h', DeploymentMode.text]

theorem pathOf_eq_some (name path : String) :
    pathOf host name = some path ↔ host.env name = some path ∧ path ≠ "" := by
  unfold pathOf
  cases host.env name with
  | none => simp
  | some p =>
    by_cases hp : p = ""
    · simp only [hp, if_true, Option.some.injEq]
      constructor
      · intro h
        cases h
      · rintro ⟨rfl, hne⟩
        exact absurd rfl hne
    · simp only [hp, if_false, Option.some.injEq]
      constructor
      · rintro rfl
        exact ⟨rfl, hp⟩
      · intro h
        exact h.1

theorem selectProvider_policy (envPrefix : String) :
    PolicyErrors (selectProvider host envPrefix) := by
  unfold selectProvider
  split
  · exact .ok _
  · split
    · exact .ok _
    · split
      · split
        · exact .ok _
        · exact .error _
      · exact .error _

theorem load_policy (provider : Provider) : PolicyErrors (provider.load host) := by
  cases provider with
  | file certPath keyPath caPath sourceLabel =>
    simp only [Provider.load]
    split
    · exact .ok _
    · exact .error _
  | spiffe => exact .error _
  | vault => exact .error _

theorem checkValidity_policy (source label : String) (x : X509Certificate) :
    PolicyErrors (checkValidity host source label x) := by
  simp only [checkValidity]
  split
  · exact .error _
  · split
    · exact .error _
    · exact .ok _

theorem enforceTrustPolicy_policy (mode : DeploymentMode) (material : MtlsMaterial β)
    (source : String) : PolicyErrors (enforceTrustPolicy host mode material source) := by
  unfold enforceTrustPolicy
  split
  · exact .error _
  · refine .bind (checkValidity_policy host _ _ _) fun _ => ?_
    refine .bind (checkValidity_policy host _ _ _) fun _ => ?_
    split
    · exact .error _
    · exact .ok _

/-- Whatever goes wrong at startup is reported as a violation of the policy. -/
theorem provideMtlsMaterial_policy (envPrefix : String) :
    PolicyErrors (provideMtlsMaterial host envPrefix) := by
  unfold provideMtlsMaterial
  refine .bind (resolveDeploymentMode_policy host) fun mode => ?_
  refine .bind (selectProvider_policy host envPrefix) fun provider => ?_
  refine .bind (load_policy host provider) fun material => ?_
  exact .bind (enforceTrustPolicy_policy host mode material _) fun _ => .ok _

/-! ## The material that is handed out -/

/-- Neither bound that can be read refuses the certificate. -/
def Unrefuted (x : X509Certificate) : Prop :=
  (∀ t, host.dateParse x.validTo = some t → host.now ≤ t) ∧
    ∀ t, host.dateParse x.validFrom = some t → t ≤ host.now

/-- Both bounds can be read. -/
def Readable (x : X509Certificate) : Prop :=
  (host.dateParse x.validFrom).isSome = true ∧ (host.dateParse x.validTo).isSome = true

/-- The bounds are dates around the current time. -/
def InWindow (x : X509Certificate) : Prop :=
  ∃ notBefore notAfter, host.dateParse x.validFrom = some notBefore ∧
    host.dateParse x.validTo = some notAfter ∧ notBefore ≤ host.now ∧ host.now ≤ notAfter

/-- The variable holds the path of a file with this content. -/
def ReadsFrom (name : String) (content : β) : Prop :=
  ∃ path, host.env name = some path ∧ path ≠ "" ∧ host.readFileSync path = .ok content

/-- The environment names a deployment mode and files, the files can be read, and the leaf and the
    CA among them parse. -/
structure Presented (envPrefix : String) (mode : DeploymentMode) (material : MtlsMaterial β)
    (leaf ca : X509Certificate) : Prop where
  mode_eq : Js.toLowerCase ((host.env "HARP_DEPLOYMENT_MODE").getD "development") = mode.text
  source_eq : Js.toLowerCase ((host.env "HARP_CERT_SOURCE").getD "file") = "file"
  cert_read : ReadsFrom host (envPrefix ++ "_CERT") material.cert
  key_read : ReadsFrom host (envPrefix ++ "_KEY") material.key
  ca_read : ReadsFrom host (envPrefix ++ "_CA") material.ca
  leaf_parsed : host.x509 material.cert = .ok leaf
  ca_parsed : host.x509 material.ca = .ok ca

/-- In production, neither certificate holds the dev marker. -/
def Unmarked (mode : DeploymentMode) (leaf ca : X509Certificate) : Prop :=
  mode = .production → marked leaf = false ∧ marked ca = false

variable {host}

theorem inWindow_iff (x : X509Certificate) :
    InWindow host x ↔ Unrefuted host x ∧ Readable host x := by
  constructor
  · rintro ⟨notBefore, notAfter, hfrom, hto, hbefore, hafter⟩
    refine ⟨⟨?_, ?_⟩, ?_, ?_⟩
    · intro t ht
      rw [hto] at ht
      exact Option.some.inj ht ▸ hafter
    · intro t ht
      rw [hfrom] at ht
      exact Option.some.inj ht ▸ hbefore
    · rw [hfrom]
      rfl
    · rw [hto]
      rfl
  · rintro ⟨⟨hto, hfrom⟩, hbefore, hafter⟩
    obtain ⟨notBefore, hnb⟩ := Option.isSome_iff_exists.mp hbefore
    obtain ⟨notAfter, hna⟩ := Option.isSome_iff_exists.mp hafter
    exact ⟨notBefore, notAfter, hnb, hna, hfrom _ hnb, hto _ hna⟩

theorem checkValidity_ok (source label : String) (x : X509Certificate) :
    checkValidity host source label x = .ok () ↔ Unrefuted host x := by
  simp only [checkValidity, Unrefuted]
  cases hto : host.dateParse x.validTo with
  | none =>
    cases hfrom : host.dateParse x.validFrom with
    | none => simp
    | some t =>
      by_cases ht : host.now < t
      · simp [ht]
      · simpa [ht] using Int.not_lt.mp ht
  | some t' =>
    by_cases ht' : t' < host.now
    · simp [ht', Int.not_le.mpr ht']
    · have hle := Int.not_lt.mp ht'
      cases hfrom : host.dateParse x.validFrom with
      | none => simp [ht', hle]
      | some t =>
        by_cases ht : host.now < t
        · simp [ht', ht]
        · simp [ht', ht, hle, Int.not_lt.mp ht]

theorem readMaterial_ok (certPath keyPath caPath : String) (material : MtlsMaterial β) :
    readMaterial host certPath keyPath caPath = .ok material ↔
      host.readFileSync certPath = .ok material.cert ∧
      host.readFileSync keyPath = .ok material.key ∧
      host.readFileSync caPath = .ok material.ca := by
  simp only [readMaterial, bind_eq_ok]
  constructor
  · rintro ⟨cert, hcert, key, hkey, ca, hca, h⟩
    obtain rfl := Except.ok.inj h
    exact ⟨hcert, hkey, hca⟩
  · rintro ⟨hcert, hkey, hca⟩
    exact ⟨_, hcert, _, hkey, _, hca, rfl⟩

theorem parseMaterial_ok (material : MtlsMaterial β) (leaf ca : X509Certificate) :
    parseMaterial host material = .ok (leaf, ca) ↔
      host.x509 material.cert = .ok leaf ∧ host.x509 material.ca = .ok ca := by
  simp only [parseMaterial, bind_eq_ok]
  constructor
  · rintro ⟨leaf', hleaf, ca', hca, h⟩
    obtain ⟨rfl, rfl⟩ := Prod.mk.inj (Except.ok.inj h)
    exact ⟨hleaf, hca⟩
  · rintro ⟨hleaf, hca⟩
    exact ⟨_, hleaf, _, hca, rfl⟩

/-- The policy accepts exactly certificates that parse, are not refused by a date, and are unmarked
    in production. -/
theorem enforceTrustPolicy_ok (mode : DeploymentMode) (material : MtlsMaterial β)
    (source : String) :
    enforceTrustPolicy host mode material source = .ok () ↔
      ∃ leaf ca, (host.x509 material.cert = .ok leaf ∧ host.x509 material.ca = .ok ca) ∧
        Unrefuted host leaf ∧ Unrefuted host ca ∧ Unmarked mode leaf ca := by
  unfold enforceTrustPolicy
  cases hparse : parseMaterial host material with
  | error e =>
    constructor
    · intro h
      cases h
    · rintro ⟨leaf, ca, hparsed, -⟩
      rw [(parseMaterial_ok material leaf ca).mpr hparsed] at hparse
      cases hparse
  | ok certs =>
    obtain ⟨leaf, ca⟩ := certs
    have hparsed := (parseMaterial_ok material leaf ca).mp hparse
    have hdev : looksLikeDevMaterial host material = (marked ca || marked leaf) := by
      simp [looksLikeDevMaterial, hparsed.1, hparsed.2]
    have hmarks : ¬ (mode = .production ∧ looksLikeDevMaterial host material = true) ↔
        Unmarked mode leaf ca := by
      rw [hdev]
      unfold Unmarked
      cases marked leaf <;> cases marked ca <;> simp
    simp only [bind_eq_ok]
    constructor
    · rintro ⟨_, hleaf, _, hca, h⟩
      have hmark : ¬ (mode = .production ∧ looksLikeDevMaterial host material = true) := by
        intro hdev
        rw [if_pos hdev] at h
        cases h
      exact ⟨leaf, ca, hparsed, (checkValidity_ok _ _ _).mp hleaf, (checkValidity_ok _ _ _).mp hca,
        hmarks.mp hmark⟩
    · rintro ⟨leaf', ca', ⟨hleaf', hca'⟩, hleaf, hca, hmark⟩
      obtain rfl := Except.ok.inj (hparsed.1.symm.trans hleaf')
      obtain rfl := Except.ok.inj (hparsed.2.symm.trans hca')
      exact ⟨(), (checkValidity_ok _ _ _).mpr hleaf, (), (checkValidity_ok _ _ _).mpr hca,
        if_neg (hmarks.mpr hmark)⟩

/-- Files are read when they are the source and their three paths are set. -/
theorem selectProvider_file (envPrefix certPath keyPath caPath : String) :
    selectProvider host envPrefix = .ok (.file certPath keyPath caPath "file") ↔
      rawSource host = "file" ∧ pathOf host (envPrefix ++ "_CERT") = some certPath ∧
        pathOf host (envPrefix ++ "_KEY") = some keyPath ∧
        pathOf host (envPrefix ++ "_CA") = some caPath := by
  constructor
  · intro h
    unfold selectProvider at h
    split at h
    · cases h
    split at h
    · cases h
    split at h
    · next hsource =>
      split at h
      · next hcert hkey hca =>
        cases h
        exact ⟨hsource, hcert, hkey, hca⟩
      · cases h
    · cases h
  · rintro ⟨hsource, hcert, hkey, hca⟩
    unfold selectProvider
    rw [hsource, hcert, hkey, hca]
    rfl

theorem load_file (certPath keyPath caPath sourceLabel : String) (material : MtlsMaterial β) :
    (Provider.file certPath keyPath caPath sourceLabel).load host = .ok material ↔
      host.readFileSync certPath = .ok material.cert ∧
      host.readFileSync keyPath = .ok material.key ∧
      host.readFileSync caPath = .ok material.ca := by
  rw [← readMaterial_ok]
  simp only [Provider.load]
  cases readMaterial host certPath keyPath caPath with
  | error e => simp
  | ok m => simp

/-- Only a provider of files ever loads anything. -/
theorem load_selected {envPrefix : String} {provider : Provider} {material : MtlsMaterial β}
    (hselect : selectProvider host envPrefix = .ok provider)
    (hload : provider.load host = .ok material) :
    ∃ certPath keyPath caPath, provider = .file certPath keyPath caPath "file" := by
  cases provider with
  | file certPath keyPath caPath sourceLabel =>
    unfold selectProvider at hselect
    split at hselect
    · cases hselect
    split at hselect
    · cases hselect
    split at hselect
    · split at hselect
      · cases hselect
        exact ⟨_, _, _, rfl⟩
      · cases hselect
    · cases hselect
  | spiffe => cases hload
  | vault => cases hload

/-- What is handed out: the presented material, with neither certificate refused. -/
theorem provideMtlsMaterial_ok (envPrefix : String) (r : ResolvedMaterial β) :
    provideMtlsMaterial host envPrefix = .ok r ↔
      r.source = "file" ∧ ∃ leaf ca, Presented host envPrefix r.mode r.material leaf ca ∧
        Unrefuted host leaf ∧ Unrefuted host ca ∧ Unmarked r.mode leaf ca := by
  simp only [provideMtlsMaterial, bind_eq_ok]
  constructor
  · rintro ⟨mode, hmode, provider, hselect, material, hload, _, hpolicy, h⟩
    obtain rfl := Except.ok.inj h
    obtain ⟨certPath, keyPath, caPath, rfl⟩ := load_selected hselect hload
    obtain ⟨hsource, hcert, hkey, hca⟩ := (selectProvider_file _ _ _ _).mp hselect
    obtain ⟨hc, hk, ha⟩ := (load_file _ _ _ _ _).mp hload
    obtain ⟨leaf, ca, ⟨hleaf, hauthority⟩, hguards⟩ :=
      (enforceTrustPolicy_ok mode material _).mp hpolicy
    rw [pathOf_eq_some] at hcert hkey hca
    exact ⟨rfl, leaf, ca, ⟨(resolveDeploymentMode_ok host mode).mp hmode, hsource,
      ⟨certPath, hcert.1, hcert.2, hc⟩, ⟨keyPath, hkey.1, hkey.2, hk⟩, ⟨caPath, hca.1, hca.2, ha⟩,
      hleaf, hauthority⟩, hguards⟩
  · rintro ⟨hsource, leaf, ca, hp, hguards⟩
    obtain ⟨certPath, hcert, hcertNe, hc⟩ := hp.cert_read
    obtain ⟨keyPath, hkey, hkeyNe, hk⟩ := hp.key_read
    obtain ⟨caPath, hca, hcaNe, ha⟩ := hp.ca_read
    have hselect := (selectProvider_file envPrefix certPath keyPath caPath).mpr ⟨hp.source_eq,
      (pathOf_eq_some host _ _).mpr ⟨hcert, hcertNe⟩, (pathOf_eq_some host _ _).mpr ⟨hkey, hkeyNe⟩,
      (pathOf_eq_some host _ _).mpr ⟨hca, hcaNe⟩⟩
    have hload := (load_file certPath keyPath caPath "file" r.material).mpr ⟨hc, hk, ha⟩
    have hmode := (resolveDeploymentMode_ok host r.mode).mpr hp.mode_eq
    have hpolicy := (enforceTrustPolicy_ok r.mode r.material "file").mpr
      ⟨leaf, ca, ⟨hp.leaf_parsed, hp.ca_parsed⟩, hguards⟩
    refine ⟨r.mode, hmode, _, hselect, r.material, hload, (), hpolicy, ?_⟩
    cases r
    cases hsource
    rfl

variable (host)

/-! ## Failing closed -/

/-- What the startup should ask for: presented material whose certificates are both in their window,
    and unmarked in production. -/
def Acceptable (envPrefix : String) : Prop :=
  ∃ mode material leaf ca, Presented host envPrefix mode material leaf ca ∧
    InWindow host leaf ∧ InWindow host ca ∧ Unmarked mode leaf ca

/-- Only acceptable material is handed out, and everything else is rejected by the policy. -/
def FailsClosed (envPrefix : String) : Prop :=
  (∀ r, provideMtlsMaterial host envPrefix = .ok r → Acceptable host envPrefix) ∧
    (¬ Acceptable host envPrefix →
      ∃ message, provideMtlsMaterial host envPrefix = .error (.certificatePolicy message))

/-- A bound that cannot be read is all that is wrong with the material. -/
def OnlyUnreadable (envPrefix : String) : Prop :=
  ∃ mode material leaf ca, Presented host envPrefix mode material leaf ca ∧
    Unrefuted host leaf ∧ Unrefuted host ca ∧ Unmarked mode leaf ca ∧
    ¬ (Readable host leaf ∧ Readable host ca)

variable {host}

theorem ReadsFrom.unique {name : String} {b b' : β} (h : ReadsFrom host name b)
    (h' : ReadsFrom host name b') : b = b' := by
  obtain ⟨path, hpath, -, hread⟩ := h
  obtain ⟨path', hpath', -, hread'⟩ := h'
  obtain rfl := Option.some.inj (hpath.symm.trans hpath')
  exact Except.ok.inj (hread.symm.trans hread')

/-- The environment presents one pair of certificates. -/
theorem Presented.unique {envPrefix : String} {mode mode' : DeploymentMode}
    {material material' : MtlsMaterial β} {leaf leaf' ca ca' : X509Certificate}
    (h : Presented host envPrefix mode material leaf ca)
    (h' : Presented host envPrefix mode' material' leaf' ca') : leaf = leaf' ∧ ca = ca' := by
  have hcert := h.cert_read.unique h'.cert_read
  have hca := h.ca_read.unique h'.ca_read
  have hleaf := h.leaf_parsed
  have hauthority := h.ca_parsed
  rw [hcert, h'.leaf_parsed] at hleaf
  rw [hca, h'.ca_parsed] at hauthority
  exact ⟨(Except.ok.inj hleaf).symm, (Except.ok.inj hauthority).symm⟩

/-- The startup fails closed exactly unless an unreadable bound is all that is wrong. -/
theorem failsClosed_iff (envPrefix : String) :
    FailsClosed host envPrefix ↔ ¬ OnlyUnreadable host envPrefix := by
  constructor
  · rintro ⟨hresolved, -⟩ ⟨mode, material, leaf, ca, hp, hleaf, hca, hmark, hunreadable⟩
    have hok : provideMtlsMaterial host envPrefix =
        .ok { material := material, mode := mode, source := "file" } :=
      (provideMtlsMaterial_ok envPrefix _).mpr ⟨rfl, leaf, ca, hp, hleaf, hca, hmark⟩
    obtain ⟨_, _, leaf', ca', hp', hleaf', hca', -⟩ := hresolved _ hok
    obtain ⟨rfl, rfl⟩ := hp.unique hp'
    exact hunreadable ⟨((inWindow_iff _).mp hleaf').2, ((inWindow_iff _).mp hca').2⟩
  · intro honly
    have hresolved (r : ResolvedMaterial β)
        (hr : provideMtlsMaterial host envPrefix = .ok r) : Acceptable host envPrefix := by
      obtain ⟨-, leaf, ca, hp, hleaf, hca, hmark⟩ := (provideMtlsMaterial_ok envPrefix r).mp hr
      have hreadable : Readable host leaf ∧ Readable host ca := by
        by_contra hunreadable
        exact honly ⟨_, _, leaf, ca, hp, hleaf, hca, hmark, hunreadable⟩
      exact ⟨_, _, leaf, ca, hp, (inWindow_iff _).mpr ⟨hleaf, hreadable.1⟩,
        (inWindow_iff _).mpr ⟨hca, hreadable.2⟩, hmark⟩
    refine ⟨hresolved, ?_⟩
    intro hnot
    cases h : provideMtlsMaterial host envPrefix with
    | ok r => exact absurd (hresolved r h) hnot
    | error e =>
      obtain ⟨message, rfl⟩ := provideMtlsMaterial_policy host envPrefix e h
      exact ⟨message, rfl⟩

end

/-! ## A date that cannot be read -/

/-- A production party whose certificates carry an end date that OpenSSL cannot print. -/
def badTimeHost : Host String where
  env name :=
    if name = "HARP_DEPLOYMENT_MODE" then some "production"
    else if name = "HARP_CONCIERGE_CERT" then some "concierge.crt"
    else if name = "HARP_CONCIERGE_KEY" then some "concierge.key"
    else if name = "HARP_CONCIERGE_CA" then some "ca.crt"
    else none
  readFileSync path := .ok path
  x509 _ := .ok {
    subject := some "CN=harp-concierge"
    issuer := some "CN=Acme Internal CA"
    validFrom := "Jan  1 00:00:00 2020 GMT"
    validTo := "Bad time value" }
  dateParse date := if date = "Jan  1 00:00:00 2020 GMT" then some 1577836800000 else none
  now := 1767225600000

/-- Its material is handed out, though nobody knows when the certificates end. -/
theorem badTime_accepted :
    provideMtlsMaterial badTimeHost "HARP_CONCIERGE" = .ok {
        material := { cert := "concierge.crt", key := "concierge.key", ca := "ca.crt" }
        mode := .production
        source := "file" } ∧
      ¬ FailsClosed badTimeHost "HARP_CONCIERGE" := by
  have hok : provideMtlsMaterial badTimeHost "HARP_CONCIERGE" = .ok {
      material := { cert := "concierge.crt", key := "concierge.key", ca := "ca.crt" }
      mode := .production
      source := "file" } := by decide +kernel
  refine ⟨hok, ?_⟩
  rintro ⟨hresolved, -⟩
  obtain ⟨_, material, leaf, _, hp, hleaf, -⟩ := hresolved _ hok
  obtain ⟨_, notAfter, -, hto, -⟩ := hleaf
  obtain rfl := Except.ok.inj hp.leaf_parsed
  have hbad : badTimeHost.dateParse "Bad time value" = none := by decide
  rw [hbad] at hto
  cases hto

end CertificateProvider

end Harp
