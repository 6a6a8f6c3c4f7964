import Harp.Gateway.EndToEnd
import Harp.Gateway.TrustPolicy

/-
  What the process starts with (`buildModelProvider` in `src/modelProvider.ts`).

  The mode is read first, then the mTLS material, then `HARP_CONTAINERS`. There is no fallback: in
  the mode "concierge" the process starts exactly if the trust policy hands out material and the
  entries of `HARP_CONTAINERS` have different ids, and then with these entries in their order;
  otherwise it throws what is wrong first (`buildModelProvider_iff`).

  `JSON.parse(raw) as ContainerEnvEntry[]` checks nothing. What the process does with values that
  are not of this type is left out.
-/

namespace Harp

def Tier.text : Tier → String
  | primary => "primary"
  | backup => "backup"

namespace ModelProvider

/-! ## The entries -/

def tierOf (value : Option Json) : Option Tier :=
  [Tier.primary, .backup].find? fun t => Json.isStr t.text value

def classesOf : Option Json → Option (List WireModelClass)
  | some (.arr items) => items.mapM fun v => ProviderInput.modelClassOf (some v)
  | _ => none

/-- A `ContainerEnvEntry`, if every field has its declared type. -/
def entryOf (v : Json) : Option ContainerEnvEntry := do
  pure {
    id := ← ProviderInput.stringOf (v.get "id")
    baseUrl := ← ProviderInput.stringOf (v.get "baseUrl")
    tier := ← tierOf (v.get "tier")
    classes := ← classesOf (v.get "classes")
    providerFamily := ← ProviderInput.stringOf (v.get "providerFamily") }

def entriesOf : Json → Option (List ContainerEnvEntry)
  | .arr items => items.mapM entryOf
  | _ => none

/-- An entry, as its text is written. -/
def ContainerEnvEntry.json (c : ContainerEnvEntry) : Json :=
  .obj [("id", .str c.id), ("baseUrl", .str c.baseUrl), ("tier", .str c.tier.text),
    ("classes", .arr (c.classes.map fun modelClass => .str modelClass.text)),
    ("providerFamily", .str c.providerFamily)]

def entriesJson (cs : List ContainerEnvEntry) : Json := .arr (cs.map ContainerEnvEntry.json)

theorem mapM_map_some {α γ : Type} {f : α → Option γ} {g : γ → α} (h : ∀ c, f (g c) = some c)
    (cs : List γ) : (cs.map g).mapM f = some cs := by
  induction cs with
  | nil => rfl
  | cons c cs ih => simp [h, ih]

theorem classesOf_text (cs : List WireModelClass) :
    classesOf (some (.arr (cs.map fun c => .str c.text))) = some cs :=
  mapM_map_some (f := fun v => ProviderInput.modelClassOf (some v))
    (g := fun c : WireModelClass => .str c.text) modelClassOf_text cs

theorem entryOf_json (c : ContainerEnvEntry) : entryOf c.json = some c := by
  have htier : tierOf (c.json.get "tier") = some c.tier := by
    change tierOf (some (.str c.tier.text)) = some c.tier
    cases c.tier <;> decide
  have hclasses : classesOf (c.json.get "classes") = some c.classes := classesOf_text c.classes
  have hid : ProviderInput.stringOf (c.json.get "id") = some c.id := rfl
  have hbaseUrl : ProviderInput.stringOf (c.json.get "baseUrl") = some c.baseUrl := rfl
  have hfamily : ProviderInput.stringOf (c.json.get "providerFamily") = some c.providerFamily := rfl
  simp only [entryOf, hid, hbaseUrl, htier, hclasses, hfamily]
  rfl

theorem entriesOf_json (cs : List ContainerEnvEntry) : entriesOf (entriesJson cs) = some cs :=
  mapM_map_some entryOf_json cs

theorem entriesJson_numberless (cs : List ContainerEnvEntry) :
    Json.Numberless (entriesJson cs) := by
  refine .arr fun v hv => ?_
  obtain ⟨c, -, rfl⟩ := List.mem_map.mp hv
  refine .obj fun m hm => ?_
  simp only [List.mem_cons, List.not_mem_nil, or_false] at hm
  rcases hm with rfl | rfl | rfl | rfl | rfl
  · exact .str _
  · exact .str _
  · exact .str _
  · refine .arr fun v hv => ?_
    obtain ⟨modelClass, -, rfl⟩ := List.mem_map.mp hv
    exact .str _
  · exact .str _

/-! ## The registry -/

/-- The id is taken. -/
def takenError (id : String) : Thrown := .error ("Container already registered: " ++ id)

def idsOf (registry : ContainerRegistry) : List String :=
  registry.containers.map (·.descriptor.id)

theorem register_taken {registry : ContainerRegistry} {c : RegisteredContainer}
    (h : c.descriptor.id ∈ idsOf registry) :
    registry.register c = .error (takenError c.descriptor.id) := by
  have hany : registry.containers.any (·.descriptor.id == c.descriptor.id) = true := by
    obtain ⟨c', hc', hid⟩ := List.mem_map.mp h
    exact List.any_eq_true.mpr ⟨c', hc', beq_iff_eq.mpr hid⟩
  unfold ContainerRegistry.register
  rw [dif_pos hany]
  rfl

theorem register_free {registry : ContainerRegistry} {c : RegisteredContainer}
    (h : c.descriptor.id ∉ idsOf registry) :
    ∃ next, registry.register c = .ok next ∧ next.containers = registry.containers ++ [c] := by
  have hany : ¬ registry.containers.any (·.descriptor.id == c.descriptor.id) = true := by
    intro hany
    obtain ⟨c', hc', hid⟩ := List.any_eq_true.mp hany
    exact h (List.mem_map.mpr ⟨c', hc', beq_iff_eq.mp hid⟩)
  unfold ContainerRegistry.register
  rw [dif_neg hany]
  exact ⟨_, rfl, rfl⟩

/-- Some entry repeats an id that is taken, and those before it do not. -/
def FirstRepeated (taken : List String) (cs : List ContainerEnvEntry) (id : String) : Prop :=
  ∃ before c after, cs = before ++ c :: after ∧ (taken ++ before.map (·.id)).Nodup ∧
    c.id ∈ taken ++ before.map (·.id) ∧ id = c.id

theorem firstRepeated_cons_of_mem {taken : List String} {c : ContainerEnvEntry}
    {cs : List ContainerEnvEntry} (htaken : taken.Nodup) (hc : c.id ∈ taken) (id : String) :
    FirstRepeated taken (c :: cs) id ↔ id = c.id := by
  constructor
  · rintro ⟨before, c', after, heq, hnodup, -, rfl⟩
    cases before with
    | nil =>
      obtain ⟨rfl, -⟩ := List.cons.inj heq
      rfl
    | cons b before =>
      obtain ⟨rfl, -⟩ := List.cons.inj heq
      exact absurd List.mem_cons_self ((List.nodup_append.mp hnodup).2.2 _ hc _ · rfl)
  · rintro rfl
    refine ⟨[], c, cs, rfl, ?_, ?_, rfl⟩
    · rwa [List.map_nil, List.append_nil]
    · rwa [List.map_nil, List.append_nil]

theorem firstRepeated_cons_of_not_mem {taken : List String} {c : ContainerEnvEntry}
    {cs : List ContainerEnvEntry} (hc : c.id ∉ taken) (id : String) :
    FirstRepeated taken (c :: cs) id ↔ FirstRepeated (taken ++ [c.id]) cs id := by
  constructor
  · rintro ⟨before, c', after, heq, hnodup, hmem, hid⟩
    cases before with
    | nil =>
      obtain ⟨rfl, -⟩ := List.cons.inj heq
      rw [List.map_nil, List.append_nil] at hmem
      exact absurd hmem hc
    | cons b before =>
      obtain ⟨rfl, hcs⟩ := List.cons.inj heq
      rw [List.map_cons, List.append_cons] at hnodup hmem
      exact ⟨before, c', after, hcs, hnodup, hmem, hid⟩
  · rintro ⟨before, c', after, rfl, hnodup, hmem, hid⟩
    refine ⟨c :: before, c', after, rfl, ?_, ?_, hid⟩
    · rw [List.map_cons, List.append_cons]
      exact hnodup
    · rw [List.map_cons, List.append_cons]
      exact hmem

/-- The loop of `buildModelProvider`: it registers all entries, in their order, or throws at the
    first one whose id is taken. -/
theorem registerAll_cases (cs : List ContainerEnvEntry) (registry : ContainerRegistry) :
    (∃ next, cs.foldlM (fun registry c => registry.register (registered c)) registry = .ok next ∧
      next.containers = registry.containers ++ cs.map registered) ∨
    ∃ id, cs.foldlM (fun registry c => registry.register (registered c)) registry =
      .error (takenError id) ∧ FirstRepeated (idsOf registry) cs id := by
  induction cs generalizing registry with
  | nil => exact .inl ⟨registry, rfl, (List.append_nil _).symm⟩
  | cons c cs ih =>
    rw [List.foldlM_cons]
    by_cases hc : c.id ∈ idsOf registry
    · have htaken : registry.register (registered c) = .error (takenError c.id) := register_taken hc
      rw [htaken]
      exact .inr ⟨c.id, rfl, (firstRepeated_cons_of_mem registry.nodup hc c.id).mpr rfl⟩
    · obtain ⟨next, hok, hnext⟩ := register_free (c := registered c) hc
      have hids : idsOf next = idsOf registry ++ [c.id] := by
        unfold idsOf
        rw [hnext, List.map_append]
        rfl
      rw [hok]
      rcases ih next with ⟨last, hlast, hall⟩ | ⟨id, herror, hfirst⟩
      · refine .inl ⟨last, hlast, ?_⟩
        rw [hall, hnext, List.append_assoc]
        rfl
      · rw [hids] at hfirst
        exact .inr ⟨id, herror, (firstRepeated_cons_of_not_mem hc id).mpr hfirst⟩

theorem FirstRepeated.not_nodup {cs : List ContainerEnvEntry} {id : String}
    (h : FirstRepeated [] cs id) : ¬ (cs.map (·.id)).Nodup := by
  obtain ⟨before, c, after, rfl, -, hmem, -⟩ := h
  rw [List.map_append, List.map_cons]
  intro hnodup
  exact (List.nodup_append.mp hnodup).2.2 _ hmem _ List.mem_cons_self rfl

theorem FirstRepeated.unique {taken : List String} {cs : List ContainerEnvEntry} {id id' : String}
    (h : FirstRepeated taken cs id) (h' : FirstRepeated taken cs id') : id = id' := by
  induction cs generalizing taken with
  | nil =>
    obtain ⟨before, c, after, heq, -⟩ := h
    exact absurd heq.symm (List.append_ne_nil_of_right_ne_nil _ (List.cons_ne_nil _ _))
  | cons c cs ih =>
    by_cases hc : c.id ∈ taken
    · have htaken : taken.Nodup := by
        obtain ⟨before, _, _, _, hnodup, _⟩ := h
        exact (List.nodup_append.mp hnodup).1
      rw [firstRepeated_cons_of_mem htaken hc] at h h'
      exact h.trans h'.symm
    · rw [firstRepeated_cons_of_not_mem hc] at h h'
      exact ih h h'

/-- Entries with different ids are registered. -/
theorem registryOf_ok (cs : List ContainerEnvEntry) (registry : ContainerRegistry) :
    registryOf cs = .ok registry ↔ registry.containers = cs.map registered := by
  rcases registerAll_cases cs .empty with ⟨next, hok, hnext⟩ | ⟨id, herror, hfirst⟩
  · rw [registryOf, hok, Except.ok.injEq]
    constructor
    · rintro rfl
      exact hnext
    · intro h
      cases next
      cases registry
      congr 1
      exact hnext.trans h.symm
  · refine iff_of_false (fun h => ?_) fun h => ?_
    · rw [registryOf, herror] at h
      cases h
    · have hids : (cs.map (·.id)).Nodup := by
        have hnodup := registry.nodup
        rw [h, List.map_map] at hnodup
        exact hnodup
      exact hfirst.not_nodup hids

/-- A repeated id is refused by name. -/
theorem registryOf_error (cs : List ContainerEnvEntry) (t : Thrown) :
    registryOf cs = .error t ↔ ∃ id, FirstRepeated [] cs id ∧ t = takenError id := by
  rcases registerAll_cases cs .empty with ⟨next, hok, hnext⟩ | ⟨id, herror, hfirst⟩
  · refine iff_of_false (fun h => ?_) ?_
    · rw [registryOf, hok] at h
      cases h
    · rintro ⟨id, hfirst, -⟩
      have hids : (cs.map (·.id)).Nodup := by
        have hnodup := next.nodup
        rw [hnext, List.map_append, List.map_map] at hnodup
        exact hnodup
      exact hfirst.not_nodup hids
  · rw [registryOf, herror, Except.error.injEq]
    constructor
    · rintro rfl
      exact ⟨id, hfirst, rfl⟩
    · rintro ⟨id', hfirst', rfl⟩
      rw [hfirst.unique hfirst']

/-! ## The provider -/

/-- What `buildModelProvider` returns; the concierge sends over the material. -/
inductive Built (β : Type) where
  | stub
  | concierge (material : MtlsMaterial β) (registry : ContainerRegistry)

section Build

variable {β : Type} (host : Host β) (jsonError : String → String)

def missingContainers : StartupError :=
  .thrown (.error ("HARP_MODEL_MODE=concierge requires HARP_CONTAINERS " ++
    "(JSON array of container definitions)."))

/-- `jsonError` is the message of the error that `JSON.parse` throws. -/
def readContainersFromEnv : Except StartupError Json :=
  match host.env "HARP_CONTAINERS" with
  | none => .error missingContainers
  | some raw =>
    if raw = "" then .error missingContainers
    else
      match Json.parse raw.toList with
      | some v => .ok v
      | none => .error (.thrown (.error ("HARP_CONTAINERS is not valid JSON: " ++ jsonError raw)))

/-- The branch of the mode "concierge"; `none` for a value of another type. -/
def buildConcierge : Option (Except StartupError (Built β)) :=
  match CertificateProvider.provideMtlsMaterial host "HARP_CONCIERGE" with
  | .error e => some (.error e)
  | .ok resolved =>
    match readContainersFromEnv host jsonError with
    | .error e => some (.error e)
    | .ok v => (entriesOf v).map fun cs =>
      match registryOf cs with
      | .error t => .error (.thrown t)
      | .ok registry => .ok (.concierge resolved.material registry)

def buildModelProvider : Option (Except StartupError (Built β)) :=
  let mode := (host.env "HARP_MODEL_MODE").getD "stub"
  if mode = "stub" then some (.ok .stub)
  else if mode = "concierge" then buildConcierge host jsonError
  else some (.error (.thrown (.error ("Unknown HARP_MODEL_MODE \"" ++ mode ++
    "\". Use \"stub\" or \"concierge\"."))))

/-- The material that the trust policy hands out. -/
def Admitted (material : MtlsMaterial β) : Prop :=
  ∃ mode leaf ca,
    CertificateProvider.Presented host "HARP_CONCIERGE" mode material leaf ca ∧
      CertificateProvider.Unrefuted host leaf ∧ CertificateProvider.Unrefuted host ca ∧
      CertificateProvider.Unmarked mode leaf ca

variable {host} {jsonError}

theorem admitted_iff {material : MtlsMaterial β} :
    Admitted host material ↔ ∃ resolved,
      CertificateProvider.provideMtlsMaterial host "HARP_CONCIERGE" = .ok resolved ∧
        resolved.material = material := by
  constructor
  · rintro ⟨mode, leaf, ca, hp, hguards⟩
    exact ⟨⟨material, mode, "file"⟩, (CertificateProvider.provideMtlsMaterial_ok _ _).mpr
      ⟨rfl, leaf, ca, hp, hguards⟩, rfl⟩
  · rintro ⟨resolved, hok, rfl⟩
    obtain ⟨-, leaf, ca, hp, hguards⟩ := (CertificateProvider.provideMtlsMaterial_ok _ _).mp hok
    exact ⟨resolved.mode, leaf, ca, hp, hguards⟩

variable {number : Int → Int → String} {cs : List ContainerEnvEntry}

theorem readContainersFromEnv_json
    (hraw : host.env "HARP_CONTAINERS" =
      some (String.ofList (Json.stringify number (entriesJson cs)))) :
    readContainersFromEnv host jsonError = .ok (entriesJson cs) := by
  have hparse : Json.parse (String.ofList (Json.stringify number (entriesJson cs))).toList =
      some (entriesJson cs) := by
    rw [String.toList_ofList]
    exact Json.parse_stringify number (entriesJson_numberless cs)
  have hne : String.ofList (Json.stringify number (entriesJson cs)) ≠ "" := by
    intro hempty
    rw [hempty] at hparse
    cases hparse
  unfold readContainersFromEnv
  rw [hraw]
  dsimp only
  rw [if_neg hne, hparse]

/-- With entries that `JSON.stringify` wrote, the mode "concierge" builds the concierge over exactly
    these containers, or throws what is wrong first: the material, or the first repeated id. -/
theorem buildModelProvider_iff (hmode : host.env "HARP_MODEL_MODE" = some "concierge")
    (hraw : host.env "HARP_CONTAINERS" =
      some (String.ofList (Json.stringify number (entriesJson cs)))) :
    (∀ built, buildModelProvider host jsonError = some (.ok built) ↔
      ∃ material registry, built = .concierge material registry ∧ Admitted host material ∧
        registry.containers = cs.map registered) ∧
    ∀ e, buildModelProvider host jsonError = some (.error e) ↔
      CertificateProvider.provideMtlsMaterial host "HARP_CONCIERGE" = .error e ∨
        (∃ material, Admitted host material) ∧
          ∃ id, FirstRepeated [] cs id ∧ e = .thrown (takenError id) := by
  have hbuild : buildModelProvider host jsonError = buildConcierge host jsonError := by
    unfold buildModelProvider
    rw [hmode]
    rfl
  rw [hbuild, buildConcierge, readContainersFromEnv_json hraw]
  simp only [admitted_iff, ← registryOf_ok, entriesOf_json, Option.map_some]
  cases hmaterial : CertificateProvider.provideMtlsMaterial host "HARP_CONCIERGE" with
  | error e =>
    refine ⟨fun built => ⟨?_, ?_⟩, fun e' => ⟨?_, ?_⟩⟩
    · intro h
      cases h
    · rintro ⟨_, _, -, ⟨_, hok, -⟩, -⟩
      cases hok
    · intro h
      cases h
      exact .inl rfl
    · rintro (h | ⟨⟨_, _, hok, -⟩, -⟩)
      · cases h
        rfl
      · cases hok
  | ok resolved =>
    cases hregistry : registryOf cs with
    | error t =>
      refine ⟨fun built => ⟨?_, ?_⟩, fun e' => ⟨?_, ?_⟩⟩
      · intro h
        cases h
      · rintro ⟨_, _, -, -, hok⟩
        cases hok
      · intro h
        cases h
        obtain ⟨id, hfirst, rfl⟩ := (registryOf_error cs t).mp hregistry
        exact .inr ⟨⟨_, resolved, rfl, rfl⟩, id, hfirst, rfl⟩
      · rintro (h | ⟨-, id, hfirst, rfl⟩)
        · cases h
        · have herror := (registryOf_error cs _).mpr ⟨id, hfirst, rfl⟩
          rw [hregistry] at herror
          cases herror
          rfl
    | ok registry =>
      refine ⟨fun built => ⟨?_, ?_⟩, fun e' => ⟨?_, ?_⟩⟩
      · intro h
        cases h
        exact ⟨_, registry, rfl, ⟨resolved, rfl, rfl⟩, rfl⟩
      · rintro ⟨_, _, rfl, ⟨resolved', hok, rfl⟩, hreg⟩
        cases hok
        cases hreg
        rfl
      · intro h
        cases h
      · rintro (h | ⟨-, id, hfirst, -⟩)
        · cases h
        · have herror := (registryOf_error cs _).mpr ⟨id, hfirst, rfl⟩
          rw [hregistry] at herror
          cases herror

end Build

def twoEntries : List ContainerEnvEntry :=
  [{ id := "p"
     baseUrl := "https://p:8443"
     tier := .primary
     classes := [.cloudReasoning, .frontierReasoning]
     providerFamily := "stub" },
   { id := "b"
     baseUrl := "https://b:8443"
     tier := .backup
     classes := [.cloudReasoning]
     providerFamily := "stub" }]

/-- A development party with these two containers. -/
def startupHost : Host String where
  env name :=
    if name = "HARP_MODEL_MODE" then some "concierge"
    else if name = "HARP_CONTAINERS" then
      some (String.ofList (Json.stringify (fun m _ => m.repr) (entriesJson twoEntries)))
    else if name = "HARP_CONCIERGE_CERT" then some "concierge.crt"
    else if name = "HARP_CONCIERGE_KEY" then some "concierge.key"
    else if name = "HARP_CONCIERGE_CA" then some "ca.crt"
    else none
  readFileSync path := .ok path
  x509 _ := .ok {
    subject := some "CN=harp-concierge"
    issuer := some "CN=Acme Internal CA"
    validFrom := "Jan  1 00:00:00 2026 GMT"
    validTo := "Jan  1 00:00:00 2027 GMT" }
  dateParse date :=
    if date = "Jan  1 00:00:00 2026 GMT" then some 1767225600000
    else if date = "Jan  1 00:00:00 2027 GMT" then some 1798761600000
    else none
  now := 1780000000000

theorem buildModelProvider_iff_two :
    (∀ built, buildModelProvider startupHost id = some (.ok built) ↔
      ∃ material registry, built = .concierge material registry ∧ Admitted startupHost material ∧
        registry.containers = twoEntries.map registered) ∧
    ∀ e, buildModelProvider startupHost id = some (.error e) ↔
      CertificateProvider.provideMtlsMaterial startupHost "HARP_CONCIERGE" = .error e ∨
        (∃ material, Admitted startupHost material) ∧
          ∃ id, FirstRepeated [] twoEntries id ∧ e = .thrown (takenError id) := by
  have hraw : startupHost.env "HARP_CONTAINERS" = some (String.ofList
      (Json.stringify (fun m _ => m.repr) (entriesJson twoEntries))) := by simp [startupHost]
  exact buildModelProvider_iff (by simp [startupHost]) hraw

end ModelProvider

end Harp
