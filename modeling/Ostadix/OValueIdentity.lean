import Ostadix.Hex
import Ostadix.OValueCanonical

/-! Content identities and the fingerprints that are composed from them. -/

namespace Ostadix

open Wire

def joinBars (parts : List String) : String := String.intercalate "|" parts

namespace OValue

section Digest

variable (sha256 : Bytes → Digest)

def hexDigest (text : String) : String := hexEncode (sha256 (utf8 text)).bytes

/-! ## Identities -/

mutual

def contentIdentity : OValue → String
  | .nixExpr _ _ fingerprint => fingerprint
  | .thunk _ _ fingerprint => fingerprint
  | .derivation drvPath _ _ => hexDigest sha256 drvPath
  | .storePath path => hexDigest sha256 path
  | .system profilePath => hexDigest sha256 profilePath
  | .capability kind identity _ => hexDigest sha256 ("capability|" ++ kind.name ++ "|" ++ identity)
  | .scope bindings =>
    hexDigest sha256 ("scope|" ++ joinBars (sortBy textOrder (bindingIdentities bindings)))
  | .snapshot kind identity _ => hexDigest sha256 ("snapshot|" ++ kind.name ++ "|" ++ identity)
  | .request _ _ fingerprint => fingerprint
  | .group _ _ fingerprint => fingerprint
  | v => hexEncode (sha256 v.canonicalBytes).bytes

def bindingIdentities : List (String × OValue) → List String
  | [] => []
  | (name, value) :: bindings =>
    (name ++ "=" ++ contentIdentity value) :: bindingIdentities bindings

end

/-! ## Constructors -/

/-- The identities of dependencies do not depend on their order. -/
def depsFingerprint (body : String) (deps : List OValue) : String :=
  hexDigest sha256 (body ++ "||" ++
    joinBars (sortBy textOrder (deps.map (contentIdentity sha256))))

def mkNixExpr (body : String) (deps : List OValue) : OValue :=
  .nixExpr body deps (depsFingerprint sha256 body deps)

def mkThunk (body : String) (deps : List OValue) : OValue :=
  .thunk body deps (depsFingerprint sha256 body deps)

def mkGroup (mode : GroupMode) (members : List OValue) : OValue :=
  .group mode members (hexDigest sha256 ("group|" ++ mode.name ++ "|" ++
    joinBars (members.map (contentIdentity sha256))))

def kindTag : RequestKind → String
  | .instantiate => "instantiate"
  | .realise => "realise"
  | .eval lang envId cacheable authority permissions =>
    "eval|" ++ lang ++ "|" ++ envId.toNat.repr ++ "|" ++ toString cacheable ++ "|" ++
      authority.getD "none" ++ "|" ++ String.intercalate "," (permissions.map BackendAuthority.name)
  | .activate profile dryRun authority =>
    "activate|" ++ profile ++ "|" ++ toString dryRun ++ "|" ++ authority.getD "none"

def requestText (kind : RequestKind) (source : OValue) : String :=
  kindTag kind ++ "||" ++ contentIdentity sha256 source

def requestFingerprint (kind : RequestKind) (source : OValue) : String :=
  hexDigest sha256 (requestText sha256 kind source)

def mkRequest (kind : RequestKind) (source : OValue) : OValue :=
  .request kind source (requestFingerprint sha256 kind source)

/-- Values that carry a fingerprint are what their constructor returns. -/
def FingerprintOk : OValue → Prop
  | .nixExpr body deps fingerprint => .nixExpr body deps fingerprint = mkNixExpr sha256 body deps
  | .thunk body deps fingerprint => .thunk body deps fingerprint = mkThunk sha256 body deps
  | .group mode members fingerprint => .group mode members fingerprint = mkGroup sha256 mode members
  | .request kind source fingerprint =>
    .request kind source fingerprint = mkRequest sha256 kind source
  | _ => True

/-- A value that was built by the constructors, all the way down. -/
structure Built where
  value : OValue
  built : ∀ w, Occurs w value → FingerprintOk sha256 w

end Digest

end OValue

end Ostadix
