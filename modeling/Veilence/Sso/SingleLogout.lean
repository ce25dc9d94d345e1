import Veilence.Go.Query
import Veilence.Sso.Service

/-!
# Single logout

A logout request as the HTTP-Redirect binding prescribes it, and what the package of the SAML
provider makes of it.  Decoders, certificates and signatures are parameters.

Main results:

- Theorem {lit}`run_of_plain`: a request is accepted if it is not compressed and the signature is
  one of the text that the verifier writes.
- Theorem {lit}`run_of_not_plain`: no other one is.
- Theorem {lit}`promised_iff`: so the requests of the binding are served only where they are
  requests of the other kind as well.
-/

namespace Veilence
namespace Sso

open Go Foundation

open Auth (rowsWhere)

/-! ## The package of the provider -/

/-- The hash functions of the signatures that are supported. -/
inductive Hash where
  | sha256
  | sha1
  | sha384
  | sha512
deriving DecidableEq

/-- {lit}`hashAlg` for the URI of a signature algorithm. -/
def hashAlg (sigAlg : GoString) : Option Hash :=
  if sigAlg = "http://www.w3.org/2001/04/xmldsig-more#rsa-sha256".toList then some .sha256
  else if sigAlg = "http://www.w3.org/2000/09/xmldsig#rsa-sha1".toList then some .sha1
  else if sigAlg = "http://www.w3.org/2001/04/xmldsig-more#rsa-sha384".toList then some .sha384
  else if sigAlg = "http://www.w3.org/2001/04/xmldsig-more#rsa-sha512".toList then some .sha512
  else none

/-- What the standard library makes of texts: {lit}`base64.StdEncoding.DecodeString`, the NameID
and the Issuer of a LogoutRequest that {lit}`xml.Unmarshal` reads, the RSA key of a PEM
certificate, which may have another key, and {lit}`rsa.VerifyPKCS1v15` of a text under a hash
function. -/
structure Codecs (Key : Type) where
  base64 : GoString → Option GoString
  logoutDocument : GoString → Option (GoString × GoString)
  certificateKey : GoString → Except GoString (Option Key)
  verifies : Key → Hash → GoString → GoString → Bool

variable {Key : Type}

/-- {lit}`ParseLogoutRequest`. -/
def parseLogoutRequest (codecs : Codecs Key) (samlRequest : GoString) :
    Except GoString (GoString × GoString) :=
  match codecs.base64 samlRequest with
  | none => .error "saml.ParseLogoutRequest: decoding base64".toList
  | some raw =>
      match codecs.logoutDocument raw with
      | none => .error "saml.ParseLogoutRequest: parsing XML".toList
      | some (nameID, issuer) =>
          if nameID = [] then
            .error "saml.ParseLogoutRequest: no NameID found in LogoutRequest".toList
          else .ok (nameID, issuer)

/-- The text that the verifier takes to be signed. -/
def signedContent (samlRequest sigAlg : GoString) : GoString :=
  "SAMLRequest=".toList ++ queryEscape samlRequest ++ "&SigAlg=".toList ++ queryEscape sigAlg

/-- {lit}`VerifyLogoutSignature`. -/
def verifyLogoutSignature (codecs : Codecs Key)
    (samlRequest signature sigAlg pemCertificate : GoString) : Except GoString Unit :=
  if signature = [] then .error "saml.VerifyLogoutSignature: no signature provided".toList
  else if sigAlg = [] then
    .error "saml.VerifyLogoutSignature: no signature algorithm provided".toList
  else
    match codecs.certificateKey pemCertificate with
    | .error message => .error ("saml.VerifyLogoutSignature: ".toList ++ message)
    | .ok none =>
        .error ("saml.VerifyLogoutSignature: ".toList ++
          "certificate does not contain an RSA public key".toList)
    | .ok (some rsaKey) =>
        match hashAlg sigAlg with
        | none =>
            .error ("saml.VerifyLogoutSignature: unsupported signature algorithm: ".toList ++
              sigAlg)
        | some hash =>
            match codecs.base64 signature with
            | none => .error "saml.VerifyLogoutSignature: decoding signature".toList
            | some sigBytes =>
                if codecs.verifies rsaKey hash (signedContent samlRequest sigAlg) sigBytes then
                  .ok ()
                else
                  .error "saml.VerifyLogoutSignature: signature verification failed".toList

/-- The services with this package. -/
def Config.withCodecs (cfg : Config) (codecs : Codecs Key) : Config :=
  { cfg with
    logoutRequest := fun samlRequest => (parseLogoutRequest codecs samlRequest).toOption
    logoutSignature := fun samlRequest signature sigAlg pemCertificate =>
      (verifyLogoutSignature codecs samlRequest signature sigAlg pemCertificate).isOk }

/-! ## What the binding prescribes -/

/-- The parameters of a logout request; a missing one is empty. -/
structure LogoutParams where
  samlRequest : GoString
  signature : GoString
  sigAlg : GoString
  relayState : GoString
deriving DecidableEq

/-- {lit}`HandleSAMLSLO` with the parameters, which does not read the relay state. -/
def LogoutParams.handle (params : LogoutParams) (cfg : Config) : Body Result :=
  handleSAMLSLO cfg params.samlRequest params.signature params.sigAlg

/-- The parameters are signed as a text, by the provider of a configuration. -/
def LogoutParams.SignedAs (params : LogoutParams) (codecs : Codecs Key) (config : SSOConfig)
    (content : GoString) : Prop :=
  params.signature ≠ [] ∧ ∃ key hash sigBytes,
    codecs.certificateKey config.samlCertificate = .ok (some key) ∧
      hashAlg params.sigAlg = some hash ∧ codecs.base64 params.signature = some sigBytes ∧
      codecs.verifies key hash content sigBytes = true

/-- A text that the sender signs: the parameters in the order of the binding, each in any
spelling that is read back, and the relay state only where there is one. -/
def LogoutParams.RedirectContent (params : LogoutParams) (content : GoString) : Prop :=
  ∃ request state alg, queryUnescape request = some params.samlRequest ∧
    queryUnescape state = some params.relayState ∧ queryUnescape alg = some params.sigAlg ∧
    content = "SAMLRequest=".toList ++ request ++
      (if params.relayState = [] then [] else "&RelayState=".toList ++ state) ++
      "&SigAlg=".toList ++ alg

/-- The request of a configured provider to log a name out, compressed, encoded and signed as the
binding prescribes. -/
def Prescribed (codecs : Codecs Key) (inflate : GoString → Option GoString) (db : Database)
    (params : LogoutParams) (nameID : GoString) : Prop :=
  ∃ compressed document issuer id config content,
    codecs.base64 params.samlRequest = some compressed ∧ inflate compressed = some document ∧
      codecs.logoutDocument document = some (nameID, issuer) ∧ nameID ≠ [] ∧ issuer ≠ [] ∧
      db.configs.get? id = some config ∧ config.provider = .saml ∧
      config.samlEntityID = issuer ∧ params.RedirectContent content ∧
      params.SignedAs codecs config content

/-- The first configuration of an entity. -/
def Database.entityConfig (db : Database) (entityID : GoString) : Option SSOConfig :=
  (rowsWhere db.configs fun c =>
    c.samlEntityID = entityID ∧ c.provider = .saml).head?.map Prod.snd

/-- A request that is not compressed, signed without its relay state and in one spelling. -/
def Plain (codecs : Codecs Key) (db : Database) (params : LogoutParams) (nameID : GoString) :
    Prop :=
  ∃ document issuer config, codecs.base64 params.samlRequest = some document ∧
    codecs.logoutDocument document = some (nameID, issuer) ∧ nameID ≠ [] ∧ issuer ≠ [] ∧
    db.entityConfig issuer = some config ∧
    params.SignedAs codecs config (signedContent params.samlRequest params.sigAlg)

/-- The user of a name. -/
def Database.samlUser (db : Database) (nameID : GoString) : Option Nat :=
  (rowsWhere db.identities fun i => i.provider = .saml ∧ i.providerUserID = nameID).head?.map
    fun row => row.2.userID

/-- The database without the sessions and the refresh tokens of a user. -/
def Database.logOut (db : Database) (userID : Nat) : Database :=
  { db with
    auth := { db.auth with
      sessions := db.auth.sessions.removeWhere fun s => s.userID = userID
      refreshTokens := db.auth.refreshTokens.removeWhere fun t => t.userID = userID } }

/-- The same for the user of a name, if there is one. -/
def Database.logOutName (db : Database) (nameID : GoString) : Database :=
  ((db.samlUser nameID).map db.logOut).getD db

/-- Single logout logs the user out for a request of the binding, and answers everything else
with an error and deletes nothing. -/
structure Promised (codecs : Codecs Key) (inflate : GoString → Option GoString) (cfg : Config)
    (db : Database) (params : LogoutParams) : Prop where
  serves : ∀ nameID, Prescribed codecs inflate db params nameID →
    machine.run (params.handle (cfg.withCodecs codecs)) db = (db.logOutName nameID, .ok)
  refuses : (∀ nameID, ¬Prescribed codecs inflate db params nameID) →
    ∃ message, machine.run (params.handle (cfg.withCodecs codecs)) db = (db, .error message)

/-! ## What the service accepts -/

section

variable {codecs : Codecs Key} {cfg : Config} {db : Database} {params : LogoutParams}
  {nameID : GoString}

theorem parseLogoutRequest_eq_ok_iff {samlRequest issuer : GoString} :
    parseLogoutRequest codecs samlRequest = .ok (nameID, issuer) ↔
      ∃ document, codecs.base64 samlRequest = some document ∧
        codecs.logoutDocument document = some (nameID, issuer) ∧ nameID ≠ [] := by
  unfold parseLogoutRequest
  constructor
  · intro hparse
    split at hparse
    · exact nomatch hparse
    · rename_i raw hraw
      split at hparse
      · exact nomatch hparse
      · rename_i name entity hdocument
        split_ifs at hparse with hname
        obtain ⟨rfl, rfl⟩ := Prod.mk.inj (Except.ok.inj hparse)
        exact ⟨raw, hraw, hdocument, hname⟩
  · rintro ⟨document, hraw, hdocument, hname⟩
    rw [hraw]
    dsimp only
    rw [hdocument]
    exact if_neg hname

theorem hashAlg_ne_none {hash : Hash} (hhash : hashAlg params.sigAlg = some hash) :
    params.sigAlg ≠ [] := by
  intro hempty
  rw [hempty] at hhash
  exact absurd hhash (by simp [hashAlg])

/-- The verifier accepts the signatures of the text that it writes. -/
theorem isOk_verifyLogoutSignature_iff {config : SSOConfig} :
    (verifyLogoutSignature codecs params.samlRequest params.signature params.sigAlg
        config.samlCertificate).isOk = true ↔
      params.SignedAs codecs config (signedContent params.samlRequest params.sigAlg) := by
  unfold verifyLogoutSignature LogoutParams.SignedAs
  constructor
  · intro hok
    split_ifs at hok with hsignature hsigAlg
    · exact nomatch hok
    · exact nomatch hok
    · refine ⟨hsignature, ?_⟩
      split at hok
      · exact nomatch hok
      · exact nomatch hok
      · rename_i key hkey
        split at hok
        · exact nomatch hok
        · rename_i hash hhash
          split at hok
          · exact nomatch hok
          · rename_i sigBytes hsigBytes
            split_ifs at hok with hverifies
            · exact ⟨key, hash, sigBytes, hkey, hhash, hsigBytes, hverifies⟩
            · exact nomatch hok
  · rintro ⟨hsignature, key, hash, sigBytes, hkey, hhash, hsigBytes, hverifies⟩
    rw [if_neg hsignature, if_neg (hashAlg_ne_none hhash), hkey]
    dsimp only
    rw [hhash]
    dsimp only
    rw [hsigBytes]
    dsimp only
    rw [if_pos hverifies]
    rfl

/-- A request with both names, from a configured provider: the signature decides. -/
theorem run_handle_of_config {issuer : GoString} {config : SSOConfig}
    (hread : parseLogoutRequest codecs params.samlRequest = .ok (nameID, issuer))
    (hname : nameID ≠ []) (hissuer : issuer ≠ [])
    (hconfig : db.entityConfig issuer = some config) :
    machine.run (params.handle (cfg.withCodecs codecs)) db =
      if (verifyLogoutSignature codecs params.samlRequest params.signature params.sigAlg
          config.samlCertificate).isOk = false then
        (db, .error "HandleSAMLSLO: signature verification failed".toList)
      else (db.logOutName nameID, .ok) := by
  have hrequest : (cfg.withCodecs codecs).logoutRequest params.samlRequest =
      some (nameID, issuer) := congrArg Except.toOption hread
  have hfind : db.exec (.findConfigBySAMLEntityID issuer) = (db, some config) :=
    congrArg (Prod.mk db) hconfig
  unfold LogoutParams.handle handleSAMLSLO
  rw [hrequest]
  dsimp only
  rw [if_neg hname, if_neg hissuer, run_send, hfind]
  dsimp only
  rw [apply_ite (fun p => machine.run p db)]
  congr 1
  have hfindUser : db.exec (.findIdentity .saml nameID) = (db, (rowsWhere db.identities fun i =>
      i.provider = .saml ∧ i.providerUserID = nameID).head?) := rfl
  unfold Database.logOutName Database.samlUser
  rw [run_send, hfindUser]
  cases (rowsWhere db.identities fun i =>
      i.provider = .saml ∧ i.providerUserID = nameID).head? with
  | none => rfl
  | some row => rfl

/-- A plain request is accepted. -/
theorem run_of_plain (hplain : Plain codecs db params nameID) :
    machine.run (params.handle (cfg.withCodecs codecs)) db = (db.logOutName nameID, .ok) := by
  obtain ⟨document, issuer, config, hraw, hdocument, hname, hissuer, hconfig, hsigned⟩ := hplain
  have hread := parseLogoutRequest_eq_ok_iff.mpr ⟨document, hraw, hdocument, hname⟩
  rw [run_handle_of_config hread hname hissuer hconfig, if_neg]
  rw [isOk_verifyLogoutSignature_iff.mpr hsigned]
  exact nofun

/-- A request that cannot be read is refused. -/
theorem run_of_unread (hread : (parseLogoutRequest codecs params.samlRequest).toOption = none) :
    machine.run (params.handle (cfg.withCodecs codecs)) db =
      (db, .error "HandleSAMLSLO: parsing logout request".toList) := by
  have hrequest : (cfg.withCodecs codecs).logoutRequest params.samlRequest = none := hread
  unfold LogoutParams.handle handleSAMLSLO
  rw [hrequest]
  rfl

/-- Every other request is refused. -/
theorem run_of_not_plain (cfg : Config) (hplain : ∀ nameID, ¬Plain codecs db params nameID) :
    ∃ message, machine.run (params.handle (cfg.withCodecs codecs)) db = (db, .error message) := by
  cases hread : parseLogoutRequest codecs params.samlRequest with
  | error message => exact ⟨_, run_of_unread (congrArg Except.toOption hread)⟩
  | ok names =>
      obtain ⟨nameID, issuer⟩ := names
      obtain ⟨document, hraw, hdocument, hname⟩ := parseLogoutRequest_eq_ok_iff.mp hread
      have hrequest : (cfg.withCodecs codecs).logoutRequest params.samlRequest =
          some (nameID, issuer) := congrArg Except.toOption hread
      by_cases hissuer : issuer = []
      · refine ⟨"HandleSAMLSLO: no Issuer in logout request".toList, ?_⟩
        unfold LogoutParams.handle handleSAMLSLO
        rw [hrequest]
        dsimp only
        rw [if_neg hname, if_pos hissuer]
        rfl
      · cases hconfig : db.entityConfig issuer with
        | none =>
            have hfind : db.exec (.findConfigBySAMLEntityID issuer) = (db, none) :=
              congrArg (Prod.mk db) hconfig
            refine ⟨"HandleSAMLSLO: finding SSO config by issuer".toList, ?_⟩
            unfold LogoutParams.handle handleSAMLSLO
            rw [hrequest]
            dsimp only
            rw [if_neg hname, if_neg hissuer, run_send, hfind]
            rfl
        | some config =>
            refine ⟨_, (run_handle_of_config hread hname hissuer hconfig).trans (if_pos ?_)⟩
            rw [Bool.eq_false_iff]
            intro hok
            exact hplain nameID ⟨document, issuer, config, hraw, hdocument, hname, hissuer, hconfig,
              isOk_verifyLogoutSignature_iff.mp hok⟩

end

/-- Single logout keeps its promise for parameters if and only if the requests of the binding
among them are plain requests to log the same user out, and the plain ones are requests of the
binding. -/
theorem promised_iff (codecs : Codecs Key) (inflate : GoString → Option GoString) (cfg : Config)
    (db : Database) (params : LogoutParams) :
    Promised codecs inflate cfg db params ↔
      (∀ nameID, Prescribed codecs inflate db params nameID →
        ∃ plainID, Plain codecs db params plainID ∧
          db.logOutName plainID = db.logOutName nameID) ∧
      ∀ plainID, Plain codecs db params plainID →
        ∃ nameID, Prescribed codecs inflate db params nameID := by
  constructor
  · intro hpromised
    constructor
    · intro nameID hprescribed
      have hserved := hpromised.serves nameID hprescribed
      by_contra hnone
      by_cases hplain : ∃ plainID, Plain codecs db params plainID
      · obtain ⟨plainID, hplain⟩ := hplain
        rw [run_of_plain hplain, Prod.mk.injEq] at hserved
        exact hnone ⟨plainID, hplain, hserved.1⟩
      · obtain ⟨message, hrefused⟩ :=
          run_of_not_plain cfg (not_exists.mp hplain)
        rw [hrefused] at hserved
        exact nomatch congrArg Prod.snd hserved
    · intro plainID hplain
      by_contra hnone
      obtain ⟨message, hrefused⟩ := hpromised.refuses (not_exists.mp hnone)
      rw [run_of_plain hplain] at hrefused
      exact nomatch congrArg Prod.snd hrefused
  · rintro ⟨hserves, hrefuses⟩
    constructor
    · intro nameID hprescribed
      obtain ⟨plainID, hplain, hlogOut⟩ := hserves nameID hprescribed
      rw [run_of_plain hplain, hlogOut]
    · intro hnone
      apply run_of_not_plain cfg
      intro plainID hplain
      obtain ⟨nameID, hprescribed⟩ := hrefuses plainID hplain
      exact hnone nameID hprescribed

/-! ## A request that is lost -/

/-- The request of the provider {lit}`i` to log the name {lit}`n` out. -/
def exampleDocument : GoString :=
  ("<LogoutRequest xmlns=\"urn:oasis:names:tc:SAML:2.0:protocol\">" ++
    "<Issuer xmlns=\"urn:oasis:names:tc:SAML:2.0:assertion\">i</Issuer>" ++
    "<NameID xmlns=\"urn:oasis:names:tc:SAML:2.0:assertion\">n</NameID></LogoutRequest>").toList

/-- The document in one block of a DEFLATE stream. -/
def exampleStream : GoString :=
  "\x01\xcc\x00\x33\xff".toList ++ exampleDocument

/-- Its base64 text. -/
def exampleRequest : GoString :=
  "AcwAM/88TG9nb3V0UmVxdWVzdCB4bWxucz0idXJuOm9hc2lz".toList ++
    "Om5hbWVzOnRjOlNBTUw6Mi4wOnByb3RvY29sIj48SXNzdWVy".toList ++
    "IHhtbG5zPSJ1cm46b2FzaXM6bmFtZXM6dGM6U0FNTDoyLjA6".toList ++
    "YXNzZXJ0aW9uIj5pPC9Jc3N1ZXI+PE5hbWVJRCB4bWxucz0i".toList ++
    "dXJuOm9hc2lzOm5hbWVzOnRjOlNBTUw6Mi4wOmFzc2VydGlv".toList ++
    "biI+bjwvTmFtZUlEPjwvTG9nb3V0UmVxdWVzdD4=".toList

/-- The URI of its algorithm. -/
def exampleAlg : GoString :=
  "http://www.w3.org/2001/04/xmldsig-more#rsa-sha256".toList

/-- The base64 decoding of the example. -/
def exampleBase64 (s : GoString) : Option GoString :=
  if s = "c2lnbmF0dXJl".toList then some "signature".toList
  else if s = exampleRequest then some exampleStream
  else none

/-- The decompression of the example. -/
def exampleInflate (s : GoString) : Option GoString :=
  if s = exampleStream then some exampleDocument else none

/-- The names in the document of the example. -/
def exampleNames (s : GoString) : Option (GoString × GoString) :=
  if s = exampleDocument then some ("n".toList, "i".toList) else none

/-- The provider has signed the request, and no other text. -/
def exampleVerifies (hash : Hash) (content sigBytes : GoString) : Bool :=
  hash = .sha256 ∧ content = signedContent exampleRequest exampleAlg ∧
    sigBytes = "signature".toList

/-- The decoders on the texts of the example. -/
def exampleCodecs : Codecs Unit :=
  ⟨exampleBase64, exampleNames, fun _ => .ok (some ()), fun _ => exampleVerifies⟩

/-- The parameters that the sender has made of it. -/
def exampleParams : LogoutParams where
  samlRequest := exampleRequest
  signature := "c2lnbmF0dXJl".toList
  sigAlg := exampleAlg
  relayState := []

/-- The configuration of the provider. -/
def exampleProvider : SSOConfig :=
  ⟨.saml, true, [], false, "i".toList, "PEM".toList, [], []⟩

/-- The provider is configured, and a user with a session has linked the name. -/
def exampleDatabase : Database where
  auth := { Auth.twoUsers with
    sessions := Ledger.empty.add ⟨1, Auth.hashRefreshToken ⟨0⟩, [], [], "saml".toList, 0, 0, 100⟩ }
  configs := Ledger.empty.add exampleProvider
  identities := Ledger.empty.add ⟨1, .saml, "n".toList, "user@x".toList⟩
  states := .empty
  cooldowns := .empty

theorem exampleCodecs_request : exampleCodecs.base64 exampleRequest = some exampleStream := by
  have hne : exampleRequest ≠ "c2lnbmF0dXJl".toList := fun heq =>
    absurd (congrArg List.head? heq) (by decide +kernel)
  rw [show exampleCodecs.base64 = exampleBase64 from rfl]
  unfold exampleBase64
  rw [if_neg hne, if_pos rfl]

theorem exampleCodecs_signature :
    exampleCodecs.base64 "c2lnbmF0dXJl".toList = some "signature".toList := by
  rw [show exampleCodecs.base64 = exampleBase64 from rfl]
  exact if_pos rfl

theorem exampleCodecs_verifies :
    exampleCodecs.verifies () .sha256 (signedContent exampleRequest exampleAlg)
      "signature".toList = true := by
  rw [show exampleCodecs.verifies () = exampleVerifies from rfl]
  exact decide_eq_true ⟨rfl, rfl, rfl⟩

theorem exampleCodecs_stream : exampleCodecs.logoutDocument exampleStream = none := by
  rw [show exampleCodecs.logoutDocument = exampleNames from rfl]
  apply if_neg
  intro heq
  have hlength := congrArg List.length heq
  rw [exampleStream, List.length_append] at hlength
  have hprefix : "\x01\xcc\x00\x33\xff".toList.length = 5 := rfl
  omega

theorem exampleCodecs_document :
    exampleCodecs.logoutDocument exampleDocument = some ("n".toList, "i".toList) := by
  rw [show exampleCodecs.logoutDocument = exampleNames from rfl]
  exact if_pos rfl

/-- A request whose data is no document. -/
theorem parseLogoutRequest_of_unread {codecs : Codecs Unit} {samlRequest raw : GoString}
    (hraw : codecs.base64 samlRequest = some raw) (hdocument : codecs.logoutDocument raw = none) :
    parseLogoutRequest codecs samlRequest =
      .error "saml.ParseLogoutRequest: parsing XML".toList := by
  unfold parseLogoutRequest
  rw [hraw]
  dsimp only
  rw [hdocument]

theorem parse_exampleRequest : parseLogoutRequest exampleCodecs exampleRequest =
    .error "saml.ParseLogoutRequest: parsing XML".toList :=
  parseLogoutRequest_of_unread exampleCodecs_request exampleCodecs_stream

theorem prescribed_example :
    Prescribed exampleCodecs exampleInflate exampleDatabase exampleParams "n".toList := by
  refine ⟨exampleStream, exampleDocument, "i".toList, 0, exampleProvider,
    signedContent exampleRequest exampleAlg, exampleCodecs_request, if_pos rfl,
    exampleCodecs_document, by decide, by decide, by decide +kernel, rfl, rfl, ?content, ?signed⟩
  case content =>
    refine ⟨queryEscape exampleRequest, [], queryEscape exampleAlg, ?_, rfl, ?_, ?_⟩
    · exact queryUnescape_queryEscape (by decide +kernel)
    · exact queryUnescape_queryEscape (by decide +kernel)
    · rw [if_pos (show exampleParams.relayState = [] from rfl), List.append_nil]
      rfl
  case signed =>
    exact ⟨by decide, (), .sha256, "signature".toList, rfl, if_pos rfl, exampleCodecs_signature,
      exampleCodecs_verifies⟩

/-- A request of the binding is answered with an error, and the session stays. -/
theorem prescribed_refused :
    Prescribed exampleCodecs exampleInflate exampleDatabase exampleParams "n".toList ∧
      machine.run (exampleParams.handle (signInConfig.withCodecs exampleCodecs)) exampleDatabase =
        (exampleDatabase, .error "HandleSAMLSLO: parsing logout request".toList) ∧
      ¬Promised exampleCodecs exampleInflate signInConfig exampleDatabase exampleParams := by
  have hrefused : machine.run (exampleParams.handle (signInConfig.withCodecs exampleCodecs))
      exampleDatabase =
        (exampleDatabase, .error "HandleSAMLSLO: parsing logout request".toList) :=
    run_of_unread (congrArg Except.toOption parse_exampleRequest)
  refine ⟨prescribed_example, hrefused, ?_⟩
  intro hpromised
  have hserved := hpromised.serves "n".toList prescribed_example
  rw [hrefused] at hserved
  exact nomatch congrArg Prod.snd hserved

end Sso
end Veilence
