import MatrixSession.Text.Decimal
import MatrixSession.Text.Split

/-!
Versions of the client-server API and their three written forms: the catalog's `v1p7`, the
`v1.7` that servers advertise, and the plain `1.7`. Both numbers are 32-bit words; the order is
numeric, major first.
-/
namespace MatrixSession

structure ApiVersion where
  major : UInt32
  minor : UInt32
  deriving DecidableEq, Repr

namespace ApiVersion

protected def le (a b : ApiVersion) : Prop :=
  a.major < b.major ∨ a.major = b.major ∧ a.minor ≤ b.minor

instance : LE ApiVersion := ⟨ApiVersion.le⟩

instance (a b : ApiVersion) : Decidable (a ≤ b) :=
  inferInstanceAs (Decidable (a.major < b.major ∨ a.major = b.major ∧ a.minor ≤ b.minor))

def ofNumerals? (major minor : List Char) : Option ApiVersion := do
  let major ← Decimal.read? UInt32.size major
  let minor ← Decimal.read? UInt32.size minor
  some ⟨UInt32.ofNat major, UInt32.ofNat minor⟩

def ofIdentifier? (text : String) : Option ApiVersion :=
  match text.toList with
  | 'v' :: rest => do
    let (major, minor) ← Text.splitFirst? 'p' rest
    ofNumerals? major minor
  | _ => none

/-- Reads an advertised version: `v1.7`, or `v1` for `v1.0`. -/
def ofAdvertised? (text : String) : Option ApiVersion :=
  match text.toList with
  | 'v' :: rest =>
    match Text.splitFirst? '.' rest with
    | some (major, minor) => ofNumerals? major minor
    | none => ofNumerals? rest ['0']
  | _ => none

def ofText? (text : String) : Option ApiVersion := do
  let plain := match text.toList with
    | 'v' :: rest => rest
    | all => all
  let (major, minor) ← Text.splitFirst? '.' plain
  ofNumerals? major minor

def text (v : ApiVersion) : String :=
  Decimal.numeral v.major.toNat ++ "." ++ Decimal.numeral v.minor.toNat

def identifier (v : ApiVersion) : String :=
  "v" ++ Decimal.numeral v.major.toNat ++ "p" ++ Decimal.numeral v.minor.toNat

end ApiVersion

structure SupportedVersion where
  identifier : String
  version : ApiVersion
  deriving DecidableEq, Repr

def SupportedVersion.canonical (version : ApiVersion) : SupportedVersion :=
  ⟨version.identifier, version⟩

end MatrixSession
