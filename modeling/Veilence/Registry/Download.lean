import Veilence.Go.Reader
import Veilence.Go.Text

/-!
# Downloading an archive

The three registry clients download an archive in the same way, each with its own texts.  The
body is copied up to a limit.  Then one more byte is read, and if that read returns no error the
archive counts as too large.  A read may return the last byte together with {lit}`EOF`, or no byte
and no error, so the error does not tell whether there was another byte.

Main results:

- Theorem {lit}`complete_iff`: an archive is stored whole and rejected exactly if it is too large
  if and only if the reads at the limit report what is left.
- Theorem {lit}`cut_at_the_limit`: an archive whose last byte is lost.
-/

namespace Veilence
namespace Registry

open Go

/-! ## The clients -/

/-- Where a download can fail. -/
inductive DownloadError where
  | origin
  | request
  | transport
  | rateLimited
  | status (code : Nat)
  | tempDir
  | tempFile
  | writing
  | tooLarge
deriving DecidableEq

/-- The part of a registry client that downloads archives: the prefix of the URLs, the limit, the
name of the file, and the texts of the errors for a URL. -/
structure TarballClient where
  base : GoString
  maxDownloadSize : Int
  fileName : GoString
  text : GoString → DownloadError → GoString

/-- The text of a limit under the verb {lit}`%d`. -/
def sizeText (maxDownloadSize : Int) : GoString :=
  if maxDownloadSize < 0 then '-' :: itoa maxDownloadSize.natAbs else itoa maxDownloadSize.natAbs

/-- The texts that two of the clients share; they differ in the name of the registry. -/
def tarballText (registry : String) (maxDownloadSize : Int) (tarballURL : GoString) :
    DownloadError → GoString
  | .origin =>
      "validating tarball URL: tarball URL does not match expected registry origin".toList
  | .request => "creating tarball request".toList
  | .transport => "downloading tarball from ".toList ++ tarballURL
  | .rateLimited => registry.toList ++ " rate limited during tarball download".toList
  | .status code => "tarball download returned status ".toList ++ itoa code
  | .tempDir => "creating temp directory".toList
  | .tempFile => "creating temp file".toList
  | .writing => "writing tarball".toList
  | .tooLarge =>
      "tarball exceeded maximum download size of ".toList ++ sizeText maxDownloadSize ++
        " bytes".toList

/-- {lit}`NPMClient`. -/
def npmClient (baseURL : GoString) (maxDownloadSize : Int) : TarballClient where
  base := baseURL
  maxDownloadSize := maxDownloadSize
  fileName := "package.tgz".toList
  text := tarballText "npm" maxDownloadSize

/-- {lit}`PyPIClient`. -/
def pypiClient (tarballBaseURL : GoString) (maxDownloadSize : Int) : TarballClient where
  base := tarballBaseURL
  maxDownloadSize := maxDownloadSize
  fileName := "package.tar.gz".toList
  text := tarballText "PyPI" maxDownloadSize

/-- {lit}`GoModulesClient`. -/
def goModulesClient (baseURL : GoString) (maxDownloadSize : Int) : TarballClient where
  base := baseURL
  maxDownloadSize := maxDownloadSize
  fileName := "module.zip".toList
  text := fun _ e =>
    match e with
    | .origin => "tarball URL does not match expected base URL".toList
    | .request => "creating download request".toList
    | .transport => "downloading module archive".toList
    | .rateLimited => "go proxy rate limited during download".toList
    | .status code => "module archive download returned status ".toList ++ itoa code
    | .tempDir => "creating temp directory".toList
    | .tempFile => "creating temp file".toList
    | .writing => "writing module archive".toList
    | .tooLarge =>
        "module archive exceeded maximum download size of ".toList ++ sizeText maxDownloadSize ++
          " bytes".toList

/-! ## A download -/

/-- {lit}`validateTarballURL`: whether the URL starts with the prefix. -/
def validateTarballURL (tarballURL baseURL : GoString) : Bool :=
  baseURL.isPrefixOf tarballURL

/-- What becomes of the request and of the file: whether the request is created, the status and
the body of the response if there is one, and whether the directory, the file and what is written
are accepted. -/
structure Exchange where
  request : Bool
  response : Option (Nat × Reader UInt8)
  tempDir : Bool
  tempFile : Bool
  writes : Bool

/-- The file at the path that is returned. -/
structure Archive where
  fileName : GoString
  content : List UInt8
deriving DecidableEq

/-- The copy in {lit}`DownloadTarball`, with the read of one more byte. -/
def TarballClient.store (c : TarballClient) (writes : Bool) (body : Reader UInt8) :
    Except DownloadError Archive :=
  let copied := ioCopy c.maxDownloadSize.toNat body
  if copied.failed || (!writes && !copied.written.isEmpty) then .error .writing
  else
    match (copied.rest.read 1).2.1 with
    | none => .error .tooLarge
    | some _ => .ok ⟨c.fileName, copied.written⟩

/-- {lit}`DownloadTarball`. -/
def TarballClient.downloadTarball (c : TarballClient) (tarballURL : GoString) (x : Exchange) :
    Except DownloadError Archive :=
  if validateTarballURL tarballURL c.base = false then .error .origin
  else if x.request = false then .error .request
  else
    match x.response with
    | none => .error .transport
    | some (status, body) =>
        if status = 429 then .error .rateLimited
        else if status ≠ 200 then .error (.status status)
        else if x.tempDir = false then .error .tempDir
        else if x.tempFile = false then .error .tempFile
        else c.store x.writes body

/-! ## Complete archives -/

/-- The response is a body, and the file takes everything. -/
def served (body : Reader UInt8) : Exchange :=
  ⟨true, some (200, body), true, true, true⟩

/-- What is stored is the whole body, and the error about the size comes exactly if the body is
longer than the limit. -/
structure Complete (c : TarballClient) (tarballURL : GoString) (body : Reader UInt8) : Prop where
  whole : ∀ a, c.downloadTarball tarballURL (served body) = .ok a → a.content = body.body
  tooLarge : c.downloadTarball tarballURL (served body) = .error .tooLarge ↔
    c.maxDownloadSize < body.body.length

/-- The reads at the limit report what is left: from a longer body no read fails and the read of
one more byte returns no error; from a body of just that length it returns an error, {lit}`EOF`
for instance, unless a read has failed before. -/
structure ReportsRest (limit : Int) (body : Reader UInt8) : Prop where
  longer : limit < body.body.length → (ioCopy limit.toNat body).failed = false ∧
    ((ioCopy limit.toNat body).rest.read 1).2.1 = none
  exact : limit = body.body.length → (ioCopy limit.toNat body).failed = true ∨
    ((ioCopy limit.toNat body).rest.read 1).2.1 ≠ none

variable {c : TarballClient} {tarballURL : GoString} {body : Reader UInt8}

/-- A download of a URL with the right prefix comes down to the copy. -/
theorem downloadTarball_served (body : Reader UInt8) (hurl : validateTarballURL tarballURL c.base = true) :
    c.downloadTarball tarballURL (served body) = c.store true body := by
  unfold TarballClient.downloadTarball served
  simp [hurl]

/-- The copy in three cases. -/
theorem store_cases (c : TarballClient) (body : Reader UInt8) :
    ((ioCopy c.maxDownloadSize.toNat body).failed = true ∧ c.store true body = .error .writing) ∨
    ((ioCopy c.maxDownloadSize.toNat body).failed = false ∧
      ((ioCopy c.maxDownloadSize.toNat body).rest.read 1).2.1 = none ∧
      c.store true body = .error .tooLarge) ∨
    ((ioCopy c.maxDownloadSize.toNat body).failed = false ∧
      ((ioCopy c.maxDownloadSize.toNat body).rest.read 1).2.1 ≠ none ∧
      c.store true body = .ok ⟨c.fileName, (ioCopy c.maxDownloadSize.toNat body).written⟩) := by
  unfold TarballClient.store
  cases hfailed : (ioCopy c.maxDownloadSize.toNat body).failed with
  | true => simp [hfailed]
  | false =>
      cases herr : ((ioCopy c.maxDownloadSize.toNat body).rest.read 1).2.1 with
      | none => simp [hfailed, herr]
      | some e => simp [hfailed, herr]

/-- An archive is stored whole, and rejected for its size exactly if it is too large, if and only
if the reads at the limit report what is left. -/
theorem complete_iff (c : TarballClient) (tarballURL : GoString) (body : Reader UInt8)
    (hurl : validateTarballURL tarballURL c.base = true) :
    Complete c tarballURL body ↔ ReportsRest c.maxDownloadSize body := by
  have hdownload := downloadTarball_served body hurl
  have hspec := ioCopy_spec c.maxDownloadSize.toNat body
  have hlength := congrArg List.length hspec.body
  rw [List.length_append] at hlength
  constructor
  · intro hcomplete
    have hlarge := hcomplete.tooLarge
    rw [hdownload] at hlarge
    rcases store_cases c body with ⟨hfailed, hstore⟩ | ⟨hok, herr, hstore⟩ | ⟨hok, herr, hstore⟩
    · refine ⟨fun hlonger => ?_, fun _ => Or.inl hfailed⟩
      rw [← hlarge, hstore] at hlonger
      exact nomatch hlonger
    · refine ⟨fun _ => ⟨hok, herr⟩, fun hexact => ?_⟩
      have hlonger := hlarge.mp hstore
      omega
    · refine ⟨fun hlonger => ?_, fun _ => Or.inr herr⟩
      rw [← hlarge, hstore] at hlonger
      exact nomatch hlonger
  · intro hreports
    have hwhole : ∀ a, c.store true body = .ok a → a.content = body.body := by
      intro a ha
      rcases store_cases c body with ⟨-, hstore⟩ | ⟨-, -, hstore⟩ | ⟨hok, herr, hstore⟩
      · exact nomatch hstore.symm.trans ha
      · exact nomatch hstore.symm.trans ha
      · have hcontent : a.content = (ioCopy c.maxDownloadSize.toNat body).written := by
          injection hstore.symm.trans ha with ha
          rw [← ha]
        -- a longer body would have been reported
        have hshort : ¬c.maxDownloadSize < body.body.length := fun hlonger =>
          herr (hreports.longer hlonger).2
        have hrest : (ioCopy c.maxDownloadSize.toNat body).rest.body = [] := by
          rcases hspec.complete hok with hlimit | hdone
          · apply List.eq_nil_of_length_eq_zero
            omega
          · rw [hdone]
            rfl
        rw [hcontent, hspec.body, hrest, List.append_nil]
    have hsize : c.store true body = .error .tooLarge ↔
        c.maxDownloadSize < body.body.length := by
      constructor
      · intro htooLarge
        rcases store_cases c body with ⟨-, hstore⟩ | ⟨hok, herr, -⟩ | ⟨-, -, hstore⟩
        · exact nomatch hstore.symm.trans htooLarge
        · by_contra hshort
          have hne : c.maxDownloadSize ≠ body.body.length := by
            intro hexact
            rcases hreports.exact hexact with hfailed | hsome
            · exact Bool.false_ne_true (hok.symm.trans hfailed)
            · exact hsome herr
          -- a shorter body has been read to its end
          rcases hspec.complete hok with hlimit | hdone
          · omega
          · rw [hdone] at herr
            exact nomatch herr
        · exact nomatch hstore.symm.trans htooLarge
      · intro hlonger
        obtain ⟨hok, herr⟩ := hreports.longer hlonger
        rcases store_cases c body with ⟨hfailed, -⟩ | ⟨-, -, hstore⟩ | ⟨-, hsome, -⟩
        · exact absurd (hok.symm.trans hfailed) Bool.false_ne_true
        · exact hstore
        · exact absurd herr hsome
    exact ⟨by rwa [hdownload], by rwa [hdownload]⟩

/-! ## The last byte together with the end -/

/-- A client with a limit of three bytes. -/
def smallClient : TarballClient :=
  npmClient "https://registry.npmjs.org".toList 3

/-- An archive of that client. -/
def smallURL : GoString :=
  "https://registry.npmjs.org/a/-/a-1.tgz".toList

/-- A body of four bytes whose end is reported after the last one. -/
def endAfter : Reader UInt8 :=
  [⟨[1, 2, 3], none⟩, ⟨[4], none⟩]

/-- A body of four bytes whose end is reported together with the last one. -/
def endWith : Reader UInt8 :=
  [⟨[1, 2, 3], none⟩, ⟨[4], some .eof⟩]

theorem complete_iff_endAfter :
    Complete smallClient smallURL endAfter ↔ ReportsRest smallClient.maxDownloadSize endAfter :=
  complete_iff smallClient smallURL endAfter (by decide)

/-- The archive is stored without its last byte. -/
theorem cut_at_the_limit :
    smallClient.downloadTarball smallURL (served endWith) =
        .ok ⟨"package.tgz".toList, [1, 2, 3]⟩ ∧
      ¬Complete smallClient smallURL endWith := by
  have hcut : smallClient.downloadTarball smallURL (served endWith) =
      .ok ⟨"package.tgz".toList, [1, 2, 3]⟩ := by
    decide
  refine ⟨hcut, fun hcomplete => ?_⟩
  have hwhole := hcomplete.whole _ hcut
  exact absurd hwhole (by decide)

end Registry
end Veilence
