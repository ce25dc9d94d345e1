import Veilence.Foundation.Program
import Veilence.Pipeline.Database

/-!
# Listing the versions of a package

{lit}`GetPackage` of the registry clients: npm and PyPI answer with all versions at once,
the Go proxy with a list of version strings and one more request for the publish time of
each.  Versions that are not in the form of {lit}`goSemverRegex`, versions after the
first ten thousand and versions whose request fails are passed over.
-/

namespace Veilence
namespace Pipeline

open Go Foundation

/-- The body of an operation or of a part of it. -/
abbrev Body (α : Type) := Prog Call Answer α

/-- A single call. -/
abbrev send (c : Call) : Body (Option (Answer c)) :=
  Prog.call c

/-- The configuration: the clients that are set up, the LLM providers, and the address
under which the Go proxy serves the archive of a module version. -/
structure Config where
  clients : Ecosystem → Bool
  providers : List GoString
  goTarballURL : GoString → GoString → GoString

/-! ## The Go proxy -/

/-- The part of the version list that is read, in bytes. -/
def goMaxVersionListLen : Nat :=
  1024 * 1024

/-- The number of versions that are looked up. -/
def goMaxVersions : Nat :=
  10000

/-- Control characters, by their encodings. -/
def controls : List GoString :=
  ((List.range 32 ++ [127]).map fun b => [Char.ofNat b]) ++
    (List.range 32).map fun b => ['\xc2', Char.ofNat (128 + b)]

/-- {lit}`validateModulePath`: whether the module path is accepted. -/
def validateModulePath (path : GoString) : Bool :=
  path ≠ [] && path.length ≤ 500 &&
    !(path.tails.any fun t => (controls ++ spaces).any fun p => p.isPrefixOf t) &&
    !(path.contains '?' || path.contains '#') &&
    ((split '/' path).head?.getD []).contains '.' &&
    !((split '/' path).contains ".".toList || (split '/' path).contains "..".toList)

/-- The characters of {lit}`\d`. -/
def isDigit (c : Char) : Bool :=
  '0' ≤ c && c ≤ '9'

/-- The characters of {lit}`[a-zA-Z0-9._]`. -/
def isLabel (c : Char) : Bool :=
  ('a' ≤ c && c ≤ 'z') || ('A' ≤ c && c ≤ 'Z') || isDigit c || c == '.' || c == '_'

/-- What follows the characters of a class, if there is at least one of them. -/
def many (cls : Char → Bool) (s : GoString) : Option GoString :=
  if s.takeWhile cls = [] then none else some (s.dropWhile cls)

/-- What follows an optional group that a character opens. -/
def group (mark : Char) : GoString → Option GoString
  | [] => some []
  | c :: s => if c = mark then many isLabel s else some (c :: s)

/-- Consume a character. -/
def char (mark : Char) : GoString → Option GoString
  | [] => none
  | c :: s => if c = mark then some s else none

/-- {lit}`goSemverRegex.MatchString`. -/
def goSemver (version : GoString) : Bool :=
  (char 'v' version >>= many isDigit >>= char '.' >>= many isDigit >>= char '.' >>=
    many isDigit >>= group '-' >>= group '+') = some []

/-- The lines of the version list that are read. -/
def goLines (body : GoString) : List GoString :=
  split '\n' (body.take goMaxVersionListLen)

/-- The loop over the lines, with the number of versions looked up so far and the
versions found. -/
def goVersions (cfg : Config) (name : GoString) (versionCount : Nat)
    (versions : List RegistryVersionInfo) : List GoString → Body (List RegistryVersionInfo)
  | [] => return versions
  | line :: lines => do
      if goMaxVersions ≤ versionCount then return versions
      else
        let version := trimSpace line
        if version = [] ∨ goSemver version = false then
          goVersions cfg name versionCount versions lines
        else
          match ← send (.goVersionInfo name version) with
          | none => goVersions cfg name (versionCount + 1) versions lines
          | some time =>
              let info : RegistryVersionInfo :=
                { version := version.tail
                  publishedAt := time
                  tarballURL := cfg.goTarballURL name version }
              goVersions cfg name (versionCount + 1) (versions ++ [info]) lines

/-! ## {lit}`GetPackage` -/

/-- The versions, the newest first. -/
def newestFirst (versions : List RegistryVersionInfo) : List RegistryVersionInfo :=
  versions.insertionSort fun a b => b.publishedAt ≤ a.publishedAt

/-- {lit}`GetPackage` of the client of the ecosystem.  A single line that fills the
scanner's buffer is an error. -/
def getPackage (cfg : Config) (pkg : Package) : Body (Option (List RegistryVersionInfo)) := do
  match pkg.ecosystem with
  | .go =>
      if validateModulePath pkg.name = false then return none
      else
        match ← send (.goVersionList pkg.name) with
        | none => return none
        | some body =>
            let versions ← goVersions cfg pkg.name 0 [] (goLines body)
            if (goLines body).any fun line => goMaxVersionListLen ≤ line.length then return none
            else return some (newestFirst versions)
  | ecosystem =>
      match ← send (.listVersions ecosystem pkg.name) with
      | none => return none
      | some versions => return some (newestFirst versions)

end Pipeline
end Veilence
