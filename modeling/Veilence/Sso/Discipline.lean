import Veilence.Foundation.Outline
import Veilence.Sso.Service

/-!
# What the operations send

Most commands of the services are of no account to a property: a rule for the commands and
the results of a call usually lets them pass.  A lenient rule restricts only the few commands
that store a user or a whole user row, that store or remove refresh tokens or that look up and
delete a pending sign-in, and only results with tokens.  Here every body outside the auth
service is gone through once, against an arbitrary lenient rule.

Main results:

- Theorems {lit}`framed_handleSAMLCallback` and {lit}`framed_handleOAuthCallback`: what is
  inside the frame of a callback sends nothing that is restricted but new accounts and
  sessions.
- Theorem {lit}`safe_lift`: the operations of the auth service.
-/

namespace Veilence
namespace Sso

open Go Foundation

open Auth (Token TokenHash TokenPair User)

/-- What a call of the services has been answered. -/
abbrev Answers := Memory Call Answer

/-- A rule for the commands of a call. -/
abbrev Rule := Op → Answers → Call → Prop

/-- The commands that a lenient rule may restrict. -/
def Call.guarded : Call → Bool
  | .createUser _ => true
  | .findByState _ => true
  | .deleteState _ => true
  | .auth (.createRefreshToken _) => true
  | .auth (.updateUser _ _) => true
  | .auth (.deleteRefreshToken _) => true
  | .auth (.deleteRefreshTokenByTokenHash _) => true
  | .auth (.deleteRefreshTokensByUserID _) => true
  | .auth (.deleteRefreshTokensByUserIDExceptTokenHash _ _) => true
  | _ => false

/-- The tokens that a result gives to the client. -/
def Result.tokens : Result → Option TokenPair
  | .auth (.login _ tokens) => some tokens
  | .auth (.tokens tokens) => some tokens
  | .auth (.tokensFor tokens _) => some tokens
  | .initialized _ tokens => some tokens
  | .callback result => result.tokenPair
  | _ => none

/-- The other commands and the results without tokens pass. -/
structure Lenient (permitted : Rule) (op : Op) (final : Answers → Result → Prop) : Prop where
  command : ∀ m c, c.guarded = false → permitted op m c
  result : ∀ m a, a.tokens = none → final m a

/-- The accounts that may be created for an e-mail address. -/
def MayCreate (cfg : Config) (permitted : Rule) (op : Op) (email : GoString) : Prop :=
  ∀ m user, user.email = Auth.normalizeEmail cfg.auth email → permitted op m (.createUser user)

/-- A body in the frame of a callback. -/
def Framed (permitted : Rule) (op : Op) (final : Answers → Result → Prop) (state : Token)
    (p : Body Result) : Prop :=
  ∃ handler f, p = withState handler state f ∧ ∀ ssoState m, Safe permitted op final m (f ssoState)

section Bodies

variable {cfg : Config} {permitted : Rule} {op : Op} {m : Answers}

/-- What a part of a body leaves open. -/
abbrev anything {α : Type} : Answers → α → Prop :=
  fun _ _ => True

/-- Where everything is permitted every body passes. -/
theorem safe_of_forall {α : Type} (hall : ∀ m c, permitted op m c) (p : Body α) :
    Safe permitted op anything m p := by
  induction p generalizing m with
  | ret a => trivial
  | cmd c k ih => exact ⟨hall m c, fun r => ih r⟩

/-- The operations of the auth service send only its commands. -/
theorem safe_lift {α : Type} (hauth : ∀ m c, permitted op m (.auth c)) (p : Auth.Body α) :
    Safe permitted op anything m (lift p) := by
  induction p generalizing m with
  | ret a => trivial
  | cmd c k ih => exact ⟨hauth m c, fun r => ih r⟩

section Parts

variable (hplain : ∀ m c, c.guarded = false → permitted op m c)

include hplain

theorem safe_timeNow {α : Type} {final : Answers → α → Prop} {f : Int → Body α}
    (hf : ∀ m now, Safe permitted op final m (f now)) :
    Safe permitted op final m (timeNow >>= f) :=
  safe_call (hplain _ _ rfl) fun r => hf _ (r.getD 0)

theorem safe_hashPassword (password : GoString) :
    Safe permitted op anything m (hashPassword cfg password) := by
  unfold hashPassword
  refine safe_call (hplain _ _ rfl) fun r => ?_
  cases r with
  | none => trivial
  | some salt =>
      dsimp only
      split <;> trivial

theorem safe_checkExistingUser (email : GoString) :
    Safe permitted op anything m (checkExistingUser email) := by
  unfold checkExistingUser
  refine safe_call (hplain _ _ rfl) ?_
  rintro (_ | _ | _) <;> trivial

theorem safe_heldBack (key : GoString) :
    Safe permitted op anything m (heldBack cfg key) := by
  unfold heldBack
  split_ifs
  · refine safe_call (hplain _ _ rfl) ?_
    rintro (_ | _ | _) <;> trivial
  · trivial

theorem safe_sendEmail (email : GoString) :
    Safe permitted op anything m (sendEmail cfg email) := by
  unfold sendEmail
  split_ifs
  · exact safe_call (hplain _ _ rfl) fun _ => trivial
  · trivial

theorem safe_generateEmailVerificationToken (userID : Nat) :
    Safe permitted op anything m (generateEmailVerificationToken cfg userID) := by
  unfold generateEmailVerificationToken
  apply (safe_heldBack hplain _).bind
  rintro m (_ | _) -
  · refine safe_call (hplain _ _ rfl) fun _ => safe_call (hplain _ _ rfl) fun r => ?_
    cases r with
    | none => trivial
    | some rawToken =>
        apply safe_timeNow hplain
        intro m now
        refine safe_call (hplain _ _ rfl) ?_
        rintro (_ | _ | _)
        · trivial
        · trivial
        · dsimp only
          split_ifs
          · refine safe_call (hplain _ _ rfl) ?_
            rintro (_ | _ | user)
            · trivial
            · trivial
            · exact safe_sendEmail hplain _
          · trivial
  · trivial

theorem safe_sendPostRegistrationVerification (userID : Nat) :
    Safe permitted op anything m (sendPostRegistrationVerification cfg userID) := by
  unfold sendPostRegistrationVerification
  split_ifs
  · trivial
  · exact safe_generateEmailVerificationToken hplain userID

omit hplain in
/-- A user is stored if the rule lets it. -/
theorem safe_storeUser {user : User} (huser : permitted op m (.createUser user))
    (failure : GoString) : Safe permitted op anything m (storeUser user failure) := by
  refine ⟨huser, ?_⟩
  rintro (_ | _ | id) <;> trivial

section Creations

variable {email : GoString} (hcreate : MayCreate cfg permitted op email)

include hcreate

theorem safe_createUserWithoutPassword (firstName lastName : GoString) :
    Safe permitted op anything m
      (createUserWithoutPassword cfg email firstName lastName) := by
  unfold createUserWithoutPassword
  dsimp only
  split
  · trivial
  · apply (safe_checkExistingUser hplain _).bind
    rintro m (message | _) -
    · trivial
    · exact safe_storeUser (hcreate m _ rfl) _

theorem safe_createUserWithPassword (firstName lastName password : GoString) :
    Safe permitted op anything m
      (createUserWithPassword cfg email firstName lastName password) := by
  unfold createUserWithPassword
  dsimp only
  split
  · trivial
  · split
    · trivial
    · apply (safe_checkExistingUser hplain _).bind
      rintro m (message | _) -
      · trivial
      · apply (safe_hashPassword hplain password).bind
        rintro m (message | passwordHash) -
        · trivial
        · exact safe_storeUser (hcreate m _ rfl) _

theorem safe_createSSOUser (firstName lastName : GoString) :
    Safe permitted op anything m (createSSOUser cfg email firstName lastName) := by
  unfold createSSOUser
  apply (safe_checkExistingUser hplain _).bind
  rintro m (message | _) -
  · trivial
  · exact safe_storeUser (hcreate m _ rfl) _

end Creations

theorem safe_linkIdentity (userID : Nat) (provider : Provider) (providerUserID email : GoString) :
    Safe permitted op anything m (linkIdentity userID provider providerUserID email) := by
  unfold linkIdentity
  refine safe_call (hplain _ _ rfl) ?_
  rintro (_ | _ | ⟨id, existing⟩)
  · trivial
  · dsimp only
    split
    · trivial
    · refine safe_call (hplain _ _ rfl) ?_
      rintro (_ | _ | _) <;> trivial
  · dsimp only
    split_ifs
    · trivial
    · refine safe_call (hplain _ _ rfl) ?_
      rintro (_ | _ | _) <;> trivial
    · trivial

theorem safe_exchangeCode (config : SSOConfig) (ssoState : SSOState) (code : GoString) :
    Safe permitted op anything m (exchangeCode cfg config ssoState code) := by
  unfold exchangeCode
  cases ssoState.provider with
  | saml => trivial
  | google =>
      refine safe_call (hplain _ _ rfl) fun r => ?_
      cases r with
      | none => trivial
      | some _ =>
          dsimp only
          split <;> trivial
  | github =>
      refine safe_call (hplain _ _ rfl) fun r => ?_
      cases r with
      | none => trivial
      | some _ =>
          dsimp only
          split <;> trivial

end Parts

/-! ## Operations that create or find accounts -/

section Operations

variable {final : Answers → Result → Prop} (hlenient : Lenient permitted op final)

include hlenient

/-- An error passes. -/
theorem Lenient.error (m : Answers) (message : GoString) : final m (.error message) :=
  hlenient.result m _ rfl

/-- What a creation returns passes. -/
theorem Lenient.created (m : Answers) (r : Except GoString Nat) : final m (created r) := by
  cases r with
  | error message => exact hlenient.error m message
  | ok userID => exact hlenient.result m _ rfl

theorem safe_register {email : GoString} (hcreate : MayCreate cfg permitted op email)
    (password firstName lastName : GoString) :
    Safe permitted op final m (register cfg email password firstName lastName) := by
  unfold register
  dsimp only
  split_ifs
  · exact hlenient.error m _
  · split
    · exact hlenient.error m _
    · apply (safe_checkExistingUser hlenient.command _).bind
      rintro m (message | _) -
      · exact hlenient.error m _
      · dsimp only
        split
        · exact hlenient.error m _
        · apply (safe_hashPassword hlenient.command password).bind
          rintro m (message | passwordHash) -
          · exact hlenient.error m _
          · apply (safe_storeUser (hcreate m _ rfl) _).bind
            rintro m (message | userID) -
            · exact hlenient.error m _
            · apply (safe_sendPostRegistrationVerification hlenient.command userID).bind
              intro m _ _
              exact hlenient.result m _ rfl

/-- The setup creates a user and returns tokens. -/
theorem safe_setupInitialize {email : GoString} (hcreate : MayCreate cfg permitted op email)
    (htokens : ∀ m userID tokens, final m (.initialized userID tokens))
    (password firstName lastName : GoString) :
    Safe permitted op final m (setupInitialize cfg email password firstName lastName) := by
  unfold setupInitialize
  refine safe_call (hlenient.command _ _ rfl) fun r => ?_
  cases r with
  | none => exact hlenient.error _ _
  | some count =>
      dsimp only
      split_ifs
      · exact hlenient.error _ _
      · split
        · exact hlenient.error _ _
        · apply (safe_hashPassword hlenient.command password).bind
          rintro m (message | passwordHash) -
          · exact hlenient.error m _
          · refine safe_call (hlenient.command _ _ rfl) fun r => ?_
            cases r with
            | none => exact hlenient.error _ _
            | some _ =>
                apply (safe_storeUser (hcreate _ _ rfl) _).bind
                rintro m (message | userID) -
                · exact hlenient.error m _
                · refine safe_call (hlenient.command _ _ rfl) fun r => ?_
                  cases r with
                  | none => exact hlenient.error _ _
                  | some _ =>
                      refine safe_call (hlenient.command _ _ rfl) fun r => ?_
                      cases r with
                      | none => exact hlenient.error _ _
                      | some accessToken =>
                          refine safe_call (hlenient.command _ _ rfl) fun r => ?_
                          cases r with
                          | none => exact hlenient.error _ _
                          | some refreshToken => exact htokens _ _ _

theorem safe_getUserByEmail (email : GoString) :
    Safe permitted op final m (getUserByEmail email) := by
  unfold getUserByEmail
  refine safe_call (hlenient.command _ _ rfl) ?_
  rintro (_ | _ | ⟨userID, user⟩)
  · exact hlenient.error _ _
  · exact hlenient.error _ _
  · exact hlenient.result _ _ rfl

theorem safe_forgotPassword (email : GoString) :
    Safe permitted op final m (forgotPassword cfg email) := by
  unfold forgotPassword
  apply (safe_heldBack hlenient.command _).bind
  rintro m (_ | _) -
  · refine safe_call (hlenient.command _ _ rfl) ?_
    rintro (_ | _ | ⟨userID, user⟩)
    · exact hlenient.error _ _
    · exact hlenient.result _ _ rfl
    · refine safe_call (hlenient.command _ _ rfl) fun _ => ?_
      refine safe_call (hlenient.command _ _ rfl) fun r => ?_
      cases r with
      | none => exact hlenient.error _ _
      | some rawToken =>
          apply safe_timeNow hlenient.command
          intro m now
          refine safe_call (hlenient.command _ _ rfl) ?_
          rintro (_ | _ | _)
          · exact hlenient.error _ _
          · exact hlenient.error _ _
          · apply (safe_sendEmail hlenient.command email).bind
            intro m _ _
            exact hlenient.result m _ rfl
  · exact hlenient.error m _

/-- Single logout removes all refresh tokens of a user. -/
theorem safe_handleSAMLSLO
    (hremove : ∀ m userID, permitted op m (.auth (.deleteRefreshTokensByUserID userID)))
    (samlRequest signature sigAlg : GoString) :
    Safe permitted op final m (handleSAMLSLO cfg samlRequest signature sigAlg) := by
  unfold handleSAMLSLO
  split
  · exact hlenient.error m _
  · split_ifs
    · exact hlenient.error m _
    · exact hlenient.error m _
    · refine safe_call (hlenient.command _ _ rfl) ?_
      rintro (_ | _ | config)
      · exact hlenient.error _ _
      · exact hlenient.error _ _
      · dsimp only
        split_ifs
        · exact hlenient.error _ _
        · refine safe_call (hlenient.command _ _ rfl) ?_
          rintro (_ | _ | ⟨id, identity⟩)
          · exact hlenient.error _ _
          · exact hlenient.result _ _ rfl
          · refine safe_call (hlenient.command _ _ rfl) fun r => ?_
            cases r with
            | none => exact hlenient.error _ _
            | some _ =>
                refine safe_call (hremove _ _) fun r => ?_
                cases r with
                | none => exact hlenient.error _ _
                | some _ => exact hlenient.result _ _ rfl

/-! ## Callbacks -/

section Callbacks

variable (hcreate : ∀ email, MayCreate cfg permitted op email)
  (hsession : ∀ m userID provider req,
    Safe permitted op final m (createSession userID provider req))

include hsession

theorem safe_loginExisting (userID : Nat) (provider : Provider) (req : Request) :
    Safe permitted op final m (loginExisting userID provider req) := by
  unfold loginExisting
  refine safe_call (hlenient.command _ _ rfl) ?_
  rintro (_ | _ | user)
  · exact hlenient.error _ _
  · exact hlenient.error _ _
  · dsimp only
    split_ifs
    · exact hlenient.result _ _ rfl
    · exact hsession _ _ _ _

include hcreate

theorem safe_loginNew (u : ProviderUser) (req : Request) :
    Safe permitted op final m (loginNew cfg u req) := by
  unfold loginNew
  apply (safe_createSSOUser hlenient.command (hcreate _) _ _).bind
  rintro m (message | userID) -
  · exact hlenient.error m _
  · dsimp only
    split
    · exact hlenient.error m _
    · refine safe_call (hlenient.command _ _ rfl) ?_
      rintro (_ | _ | id)
      · exact hlenient.error _ _
      · exact hlenient.error _ _
      · exact hsession _ _ _ _

theorem safe_resolveAndIssueJWT (config : SSOConfig) (u : ProviderUser) (req : Request) :
    Safe permitted op final m (resolveAndIssueJWT cfg config u req) := by
  unfold resolveAndIssueJWT
  split_ifs
  · exact hlenient.result m _ rfl
  · exact hlenient.result m _ rfl
  · refine safe_call (hlenient.command _ _ rfl) ?_
    rintro (_ | _ | ⟨id, identity⟩)
    · exact hlenient.error _ _
    · unfold loginUnlinked
      refine safe_call (hlenient.command _ _ rfl) ?_
      rintro (_ | _ | ⟨userID, user⟩)
      · exact hlenient.error _ _
      · dsimp only
        split_ifs
        · exact hlenient.result _ _ rfl
        · exact safe_loginNew hlenient hcreate hsession u req
      · exact hlenient.result _ _ rfl
    · exact safe_loginExisting hlenient hsession _ _ _

theorem safe_finishCallback (config : SSOConfig) (ssoState : SSOState) (linkProvider : Provider)
    (u : ProviderUser) (req : Request) :
    Safe permitted op final m (finishCallback cfg config ssoState linkProvider u req) := by
  unfold finishCallback
  cases ssoState.mode with
  | link userID =>
      apply (safe_linkIdentity hlenient.command userID linkProvider _ _).bind
      rintro m (error | _) -
      · cases error with
        | conflict => exact hlenient.result m _ rfl
        | other => exact hlenient.result m _ rfl
      · exact hlenient.result m _ rfl
  | login => exact safe_resolveAndIssueJWT hlenient hcreate hsession config u req

omit hcreate hsession in
theorem safe_withConfig (handler : String) (ssoState : SSOState) {f : SSOConfig → Body Result}
    (hf : ∀ m config, Safe permitted op final m (f config)) :
    Safe permitted op final m (withConfig handler ssoState f) := by
  unfold withConfig
  refine safe_call (hlenient.command _ _ rfl) ?_
  rintro (_ | _ | config)
  · exact hlenient.error _ _
  · exact hlenient.error _ _
  · exact hf _ config

theorem framed_handleSAMLCallback (samlResponse : GoString) (relayState : Token)
    (ipAddress userAgent : GoString) :
    Framed permitted op final relayState
      (handleSAMLCallback cfg samlResponse relayState ipAddress userAgent) := by
  refine ⟨_, _, rfl, fun ssoState m => ?_⟩
  apply safe_withConfig hlenient
  intro m config
  refine safe_call (hlenient.command _ _ rfl) fun r => ?_
  cases r with
  | none => exact hlenient.error _ _
  | some _ =>
      dsimp only
      split
      · exact hlenient.error _ _
      · exact safe_finishCallback hlenient hcreate hsession _ _ _ _ _

theorem framed_handleOAuthCallback (code : GoString) (state : Token)
    (ipAddress userAgent : GoString) :
    Framed permitted op final state
      (handleOAuthCallback cfg code state ipAddress userAgent) := by
  refine ⟨_, _, rfl, fun ssoState m => ?_⟩
  apply safe_withConfig hlenient
  intro m config
  apply (safe_exchangeCode hlenient.command config ssoState code).bind
  rintro m (message | info) -
  · exact hlenient.error m _
  · dsimp only
    split_ifs
    · exact hlenient.result m _ rfl
    · exact hlenient.result m _ rfl
    · exact safe_finishCallback hlenient hcreate hsession _ _ _ _ _

end Callbacks

end Operations

end Bodies

end Sso
end Veilence
