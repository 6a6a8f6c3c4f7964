import Harp.Core.Types
import Harp.Lib.Text

/-
  Loading the mTLS material at startup (`src/gateway/security/CertificateProvider.ts`,
  `src/gateway/security/certProviders.ts`).

  What a party reads of its process is a parameter: the environment variables, the files, Node's
  X.509 parser, `Date.parse` and the clock. A buffer is any type.
-/

namespace Harp

structure MtlsMaterial (β : Type) where
  cert : β
  key : β
  ca : β
  deriving DecidableEq, Repr

inductive DeploymentMode where
  | development
  | production
  deriving DecidableEq, Repr

def DeploymentMode.text : DeploymentMode → String
  | development => "development"
  | production => "production"

/-- Marker embedded in the dev CA's subject. -/
def devCaMarker : String := "DEV-CERT-DO-NOT-USE-IN-PRODUCTION"

/-- What `X509Certificate` shows of a certificate; a name may be missing. -/
structure X509Certificate where
  subject : Option String
  issuer : Option String
  validFrom : String
  validTo : String
  deriving DecidableEq, Repr

/-- What `readFileSync` and `X509Certificate` throw: an `Error`, of which the message is read. -/
structure NodeError where
  message : String
  deriving DecidableEq, Repr

/-- The process of a party. An instant is in milliseconds; `none` is `NaN` or `undefined`. -/
structure Host (β : Type) where
  env : String → Option String
  readFileSync : String → Except NodeError β
  x509 : β → Except NodeError X509Certificate
  dateParse : String → Option Int
  now : Int

/-- What starting a party can throw. -/
inductive StartupError where
  | certificatePolicy (message : String)
  | thrown (e : Thrown)
  deriving DecidableEq, Repr

namespace CertificateProvider

variable {β : Type} (host : Host β)

/-! ## The trust policy -/

/-- `HARP_DEPLOYMENT_MODE` in lower case, development by default. -/
def rawMode : String :=
  Js.toLowerCase ((host.env "HARP_DEPLOYMENT_MODE").getD "development")

def resolveDeploymentMode : Except StartupError DeploymentMode :=
  if rawMode host = "production" then .ok .production
  else if rawMode host = "development" then .ok .development
  else .error (.certificatePolicy ("Invalid HARP_DEPLOYMENT_MODE \"" ++ rawMode host ++
    "\". Use \"development\" or \"production\"."))

/-- The subject or the issuer holds the marker. -/
def marked (x : X509Certificate) : Bool :=
  Js.includes (x.subject.getD "") devCaMarker || Js.includes (x.issuer.getD "") devCaMarker

/-- Whether the material comes from the local dev CA; what does not parse is passed over. -/
def looksLikeDevMaterial (material : MtlsMaterial β) : Bool :=
  [material.ca, material.cert].any fun buf =>
    match host.x509 buf with
    | .ok x => marked x
    | .error _ => false

/-- One turn of the loop over the two certificates. An unreadable date fails neither
    comparison. -/
def checkValidity (source label : String) (x : X509Certificate) : Except StartupError Unit :=
  let notAfter := host.dateParse x.validTo
  let notBefore := host.dateParse x.validFrom
  if notAfter.any (host.now > ·) then
    .error (.certificatePolicy (label ++ " certificate is expired (source: " ++ source ++
      "). Failing closed."))
  else if notBefore.any (host.now < ·) then
    .error (.certificatePolicy (label ++ " certificate is not yet valid (source: " ++ source ++
      "). Failing closed."))
  else .ok ()

/-- The leaf and the CA, parsed in this order. -/
def parseMaterial (material : MtlsMaterial β) :
    Except NodeError (X509Certificate × X509Certificate) := do
  let certObj ← host.x509 material.cert
  let caObj ← host.x509 material.ca
  pure (certObj, caObj)

def enforceTrustPolicy (mode : DeploymentMode) (material : MtlsMaterial β) (source : String) :
    Except StartupError Unit :=
  match parseMaterial host material with
  | .error e =>
    .error (.certificatePolicy ("Certificate material is not valid X.509 (source: " ++ source ++
      "): " ++ e.message ++ ". Failing closed."))
  | .ok (certObj, caObj) => do
    checkValidity host source "leaf" certObj
    checkValidity host source "ca" caObj
    if mode = .production ∧ looksLikeDevMaterial host material = true then
      .error (.certificatePolicy ("Development CA material detected in PRODUCTION mode. " ++
        "Dev certificates are prohibited in production; supply material from a real PKI " ++
        "or workload-identity system (SPIFFE/SPIRE, Vault PKI, or an internal CA). " ++
        "Failing closed."))
    else .ok ()

/-! ## The providers -/

/-- The classes that implement the interface, with the paths that a file provider is built of. -/
inductive Provider where
  | file (certPath keyPath caPath sourceLabel : String)
  | spiffe
  | vault
  deriving DecidableEq, Repr

def Provider.source : Provider → String
  | file _ _ _ sourceLabel => sourceLabel
  | spiffe => "spiffe"
  | vault => "vault-pki"

/-- Reads PEM material from explicit file paths. -/
def readMaterial (certPath keyPath caPath : String) : Except NodeError (MtlsMaterial β) := do
  let cert ← host.readFileSync certPath
  let key ← host.readFileSync keyPath
  let ca ← host.readFileSync caPath
  pure { cert := cert, key := key, ca := ca }

def Provider.load : Provider → Except StartupError (MtlsMaterial β)
  | file certPath keyPath caPath sourceLabel =>
    match readMaterial host certPath keyPath caPath with
    | .ok material => .ok material
    | .error e =>
      .error (.certificatePolicy ("Failed to load certificate material from files (source: " ++
        sourceLabel ++ "): " ++ e.message ++ ". Failing closed."))
  | spiffe =>
    .error (.certificatePolicy (
      "SpiffeCertificateProvider is a documented migration target and is not yet wired. " ++
      "Implement against the SPIFFE Workload API for the chosen environment. " ++
      "Until then, configure an explicit production certificate source. Failing closed."))
  | vault =>
    .error (.certificatePolicy (
      "VaultCertificateProvider is a documented migration target and is not yet wired. " ++
      "Implement against your Vault PKI issue endpoint with short TTLs and renewal. " ++
      "Until then, configure an explicit production certificate source. Failing closed."))

/-- `HARP_CERT_SOURCE` in lower case, files by default. -/
def rawSource : String := Js.toLowerCase ((host.env "HARP_CERT_SOURCE").getD "file")

/-- The path in a variable; an unset and an empty one are both missing. -/
def pathOf (name : String) : Option String :=
  match host.env name with
  | some path => if path = "" then none else some path
  | none => none

def selectProvider (envPrefix : String) : Except StartupError Provider :=
  if rawSource host = "spiffe" then .ok .spiffe
  else if rawSource host = "vault" then .ok .vault
  else if rawSource host = "file" then
    match pathOf host (envPrefix ++ "_CERT"), pathOf host (envPrefix ++ "_KEY"),
      pathOf host (envPrefix ++ "_CA") with
    | some certPath, some keyPath, some caPath => .ok (.file certPath keyPath caPath "file")
    | _, _, _ => .error (.certificatePolicy ("HARP_CERT_SOURCE=file requires " ++ envPrefix ++
      "_CERT/KEY/CA. Failing closed."))
  else .error (.certificatePolicy ("Unknown HARP_CERT_SOURCE \"" ++ rawSource host ++
    "\". Use \"file\", \"spiffe\", or \"vault\"."))

structure ResolvedMaterial (β : Type) where
  material : MtlsMaterial β
  mode : DeploymentMode
  source : String
  deriving DecidableEq, Repr

/-- What `provideMtlsMaterial` resolves or rejects with. -/
def provideMtlsMaterial (envPrefix : String) : Except StartupError (ResolvedMaterial β) := do
  let mode ← resolveDeploymentMode host
  let provider ← selectProvider host envPrefix
  let material ← provider.load host
  enforceTrustPolicy host mode material provider.source
  pure { material := material, mode := mode, source := provider.source }

end CertificateProvider

end Harp
