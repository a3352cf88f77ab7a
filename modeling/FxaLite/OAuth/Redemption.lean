import FxaLite.OAuth.Routes
import FxaLite.Lib.SingleUse

/-!
# Redeeming a code

A code is looked up, checked and deleted, and then tokens are made for it, whether or not there
was still a code to delete. Two requests that have both found it are both answered with tokens.
If a request comes to hold the code only while no other does, one at most is, and the one refresh
token there may be is in its response.
-/

namespace FxaLite.OAuth

open FxaLite.Accounts Concurrent Reactive

/-- A token request that presents a code. -/
def codeRequest (requestCode : String) (payload : TokenRequest) : TokenRequest :=
  { payload with grantType := "authorization_code", code := some requestCode }

/-- A request for the tokens of a code. -/
def redeem (server : Server) (requestCode : String) (request : TokenRequest × Ambient) :
    Script Db (Except OauthError TokenResponse) :=
  oauthToken server (codeRequest requestCode request.1) request.2

/-- The rest of it, once the code is found. -/
def foundCode (server : Server) (requestCode : String) (request : TokenRequest × Ambient) (client : Client)
    (row : OauthCode) : Script Db (Except OauthError TokenResponse) :=
  (redeemCode server request.2 client (codeRequest requestCode request.1) requestCode row).andThen
    (generateTokens server request.2 (tokenTtl server request.1))

/-- The checks of a code that is found. -/
structure Passes (server : Server) (request : TokenRequest × Ambient) (client : Client) (row : OauthCode) : Prop where
  client : compareDigest row.clientId client.id = .ok true
  fresh : ¬expiresAt server row < request.2.now 0
  verifier : checkCodeVerifier server row request.1.codeVerifier = .ok ()

/-- What is left of a request whose code has passed: to delete it, and to make tokens. -/
def holding (server : Server) (client : Client) (row : OauthCode) (ambient : Ambient) (ttl : ℤ) :
    Script Db (Except OauthError TokenResponse) :=
  .act (·.deleteOauthCode row.code) ((codeAccount client row).andThen (generateTokens server ambient ttl))

/-- A request holds the code: it has found it, and has yet to delete it. -/
def HoldsCode (server : Server) (requestCode : String) (script : Script Db (Except OauthError TokenResponse)) : Prop :=
  ∃ client row ambient ttl, row.code = server.hashToken requestCode ∧ script = holding server client row ambient ttl

/-- A request has deleted the code: it reads the account, makes the tokens, or is over. -/
inductive HasDeleted (server : Server) : Script Db (Except OauthError TokenResponse) → Prop
  | account (client : Client) (row : OauthCode) (ambient : Ambient) (ttl : ℤ) :
    HasDeleted server ((codeAccount client row).andThen (generateTokens server ambient ttl))
  | tokens (ambient : Ambient) (ttl : ℤ) (grant : Grant) : HasDeleted server (generateTokens server ambient ttl grant)
  | finished (result : Except OauthError TokenResponse) : HasDeleted server (.done result)

/-- A request is refused, and may still sweep the code away. -/
inductive IsRefused : Script Db (Except OauthError TokenResponse) → Prop
  | now (raised : OauthError) : IsRefused (.done (.error raised))
  | sweeping (code : String) (raised : OauthError) : IsRefused (.act (·.deleteOauthCode code) (.done (.error raised)))

/-! ### One request -/

section Request

variable {server : Server} {requestCode : String} {request : TokenRequest × Ambient}

/-- What a code that is found leads to. -/
theorem foundCode_cases {client : Client} {row : OauthCode} (hcode : row.code = server.hashToken requestCode) :
    (Passes server request client row ∧ HoldsCode server requestCode (foundCode server requestCode request client row)) ∨
      IsRefused (foundCode server requestCode request client row) := by
  unfold foundCode redeemCode
  split
  · exact Or.inr (.now _)
  · exact Or.inr (.now _)
  · rename_i hclient
    split
    · exact Or.inr (.sweeping _ _)
    · rename_i hfresh
      split
      · exact Or.inr (.now _)
      · rename_i hverifier
        exact Or.inl ⟨⟨hclient, hfresh, hverifier⟩, client, row, request.2, tokenTtl server request.1, hcode, rfl⟩

/-- A request is refused at once, or begins by looking the code up. -/
theorem redeem_cases (server : Server) (requestCode : String) (request : TokenRequest × Ambient) :
    (∃ raised, redeem server requestCode request = .done (.error raised)) ∨
    ∃ client, findClient server request.1.clientId = .ok client ∧
      redeem server requestCode request = .read fun db =>
        match db.oauthCode (server.hashToken requestCode) with
        | none => .done (.error (.unknownCode requestCode))
        | some row => foundCode server requestCode request client row := by
  unfold redeem oauthToken
  split
  · exact Or.inl ⟨_, rfl⟩
  · rename_i client hclient
    split
    · exact Or.inl ⟨_, rfl⟩
    · have hgrant : requestGrant server request.2 client (codeRequest requestCode request.1) =
          authorizationCodeGrant server request.2 client (codeRequest requestCode request.1) := if_pos rfl
      rw [hgrant]
      by_cases hpublic : ((given request.1.codeVerifier).isSome && !client.publicClient) = true
      · have hrefused : authorizationCodeGrant server request.2 client (codeRequest requestCode request.1) =
            .done (.error (.notPublicClient client.id)) := if_pos hpublic
        rw [hrefused]
        exact Or.inl ⟨_, rfl⟩
      · have hlooks : authorizationCodeGrant server request.2 client (codeRequest requestCode request.1) = .read _ :=
          if_neg hpublic
        refine Or.inr ⟨client, hclient, ?_⟩
        rw [hlooks, Script.andThen_read]
        congr 1
        funext db
        cases db.oauthCode (server.hashToken requestCode) with
        | none => rfl
        | some row => rfl

/-- The statements after the deletion leave the codes alone. -/
theorem HasDeleted.next {script : Script Db (Except OauthError TokenResponse)} {effect : Db → Db}
    {next : Db → Script Db (Except OauthError TokenResponse)} (h : HasDeleted server script)
    (hscript : script = .stmt effect next) (db : Db) :
    (effect db).oauthCodes = db.oauthCodes ∧ HasDeleted server (next db) := by
  cases h with
  | account client row ambient ttl =>
    obtain ⟨rfl, rfl⟩ := Script.stmt.inj hscript
    refine ⟨rfl, ?_⟩
    dsimp only
    cases db.account row.uid with
    | none => exact .finished _
    | some account =>
      change HasDeleted server (Script.andThen (.done (grantFromCode client account row)) _)
      cases grantFromCode client account row with
      | error raised => exact .finished _
      | ok grant => exact .tokens ambient ttl grant
  | tokens ambient ttl grant =>
    unfold generateTokens at hscript
    split at hscript
    · obtain ⟨rfl, rfl⟩ := Script.stmt.inj hscript
      dsimp only
      split
      · exact ⟨rfl, .finished _⟩
      · exact ⟨rfl, .finished _⟩
    · cases hscript
  | finished result => cases hscript

/-- The scripts of requests for the tokens of a code, by stage. -/
def redemptionStage (server : Server) (requestCode : String) :
    Stage → Script Db (Except OauthError TokenResponse) → Prop
  | .waiting, script => ∃ request, script = redeem server requestCode request
  | .inHand, script => HoldsCode server requestCode script
  | .taken, script => HasDeleted server script
  | .lost, script => IsRefused script

/-- Deleting codes brings none back. -/
theorem oauthCode_of_deleteOauthCode {db : Db} {code other : String}
    (h : (db.deleteOauthCode code).oauthCode other ≠ none) : db.oauthCode other ≠ none := by
  intro hnone
  refine h (List.find?_eq_none.mpr fun row hrow => ?_)
  exact List.find?_eq_none.mp hnone row (List.mem_filter.mp hrow).1

/-- What one statement of a request does to the code, and to the stage. -/
theorem redemptionStage_next {stage : Stage} {effect : Db → Db} {next : Db → Script Db (Except OauthError TokenResponse)}
    (h : redemptionStage server requestCode stage (.stmt effect next)) (db : Db) :
    ((effect db).oauthCode (server.hashToken requestCode) ≠ none → db.oauthCode (server.hashToken requestCode) ≠ none) ∧
      ∃ stage', Stage.Moves (db.oauthCode (server.hashToken requestCode) ≠ none)
        ((effect db).oauthCode (server.hashToken requestCode) ≠ none) stage stage' ∧
          redemptionStage server requestCode stage' (next db) := by
  cases stage with
  | waiting =>
    obtain ⟨request, hrequest⟩ := h
    obtain ⟨raised, hraised⟩ | ⟨client, -, hread⟩ := redeem_cases server requestCode request
    · cases hrequest.trans hraised
    · obtain ⟨rfl, rfl⟩ := Script.stmt.inj (hrequest.trans hread)
      refine ⟨id, ?_⟩
      dsimp only
      cases hfound : db.oauthCode (server.hashToken requestCode) with
      | none => exact ⟨.lost, .miss, .now _⟩
      | some row =>
        obtain ⟨-, hholds⟩ | hrefused := @foundCode_cases server requestCode request client row
          (Db.code_of_oauthCode hfound)
        · exact ⟨.inHand, .find (by simp), hholds⟩
        · exact ⟨.lost, .miss, hrefused⟩
  | inHand =>
    obtain ⟨client, row, ambient, ttl, hcode, hscript⟩ := h
    obtain ⟨rfl, rfl⟩ := Script.stmt.inj hscript
    have hgone : (db.deleteOauthCode row.code).oauthCode (server.hashToken requestCode) = none := by
      rw [hcode]
      exact Db.oauthCode_deleteOauthCode db _
    exact ⟨fun hthere => absurd hgone hthere, .taken, .take (not_not.mpr hgone), .account client row ambient ttl⟩
  | taken =>
    obtain ⟨hcodes, hnext⟩ := HasDeleted.next h rfl db
    refine ⟨?_, .taken, .stay _, hnext⟩
    simp only [Db.oauthCode, hcodes]
    exact id
  | lost =>
    generalize hscript : Script.stmt effect next = script at h
    cases h with
    | now raised => cases hscript
    | sweeping code raised =>
      obtain ⟨rfl, rfl⟩ := Script.stmt.inj hscript
      exact ⟨oauthCode_of_deleteOauthCode, .lost, .stay _, .now raised⟩

/-- A code, as a ticket. -/
def codeTicket (server : Server) (requestCode : String) : Ticket Db (Except OauthError TokenResponse) where
  present db := db.oauthCode (server.hashToken requestCode) ≠ none
  won result := ∃ response, result = .ok response
  inStage := redemptionStage server requestCode
  moves := redemptionStage_next
  wins := by
    intro stage result h hwon
    obtain ⟨response, rfl⟩ := hwon
    cases stage with
    | waiting =>
      obtain ⟨request, hrequest⟩ := h
      obtain ⟨raised, hraised⟩ | ⟨client, -, hread⟩ := redeem_cases server requestCode request
      · cases hrequest.trans hraised
      · cases hrequest.trans hread
    | inHand =>
      obtain ⟨client, row, ambient, ttl, -, hscript⟩ := h
      cases hscript
    | taken => rfl
    | lost => cases h

/-! ### Refresh tokens -/

/-- A program adds a refresh token with its last statement only, and is then over with the token in
its response. -/
def MintsLast (server : Server) : Script Db (Except OauthError TokenResponse) → Prop
  | .done _ => True
  | .stmt effect next => ∀ db, MintsLast server (next db) ∧
      ((effect db).refreshTokens = db.refreshTokens ∨
        ∃ row response token, (effect db).refreshTokens = db.refreshTokens ++ [row] ∧ next db = .done (.ok response) ∧
          response.refreshToken = some token ∧ row.tokenId = server.hashToken token)

/-- Making tokens adds one refresh token at most. -/
theorem mintsLast_generateTokens (ambient : Ambient) (ttl : ℤ) (grant : Grant) :
    MintsLast server (generateTokens server ambient ttl grant) := by
  unfold generateTokens
  split
  · intro db
    dsimp only
    split
    · exact ⟨trivial, Or.inr ⟨_, _, _, rfl, rfl, rfl, rfl⟩⟩
    · exact ⟨trivial, Or.inl rfl⟩
  · trivial

/-- And so does all that follows once the code is found. -/
theorem mintsLast_foundCode {client : Client} {row : OauthCode} (hcode : row.code = server.hashToken requestCode) :
    MintsLast server (foundCode server requestCode request client row) := by
  obtain ⟨-, client, row, ambient, ttl, -, hscript⟩ | hrefused := @foundCode_cases server requestCode request client row hcode
  · rw [hscript]
    refine fun db => ⟨fun db => ⟨?_, Or.inl rfl⟩, Or.inl rfl⟩
    dsimp only
    cases db.account row.uid with
    | none => trivial
    | some account =>
      change MintsLast server (Script.andThen (.done (grantFromCode client account row)) _)
      cases grantFromCode client account row with
      | error raised => trivial
      | ok grant => exact mintsLast_generateTokens ambient ttl grant
  · generalize foundCode server requestCode request client row = script at hrefused
    cases hrefused with
    | now raised => trivial
    | sweeping code raised => exact fun db => ⟨trivial, Or.inl rfl⟩

/-- A request adds one refresh token at most, and answers with it. -/
theorem mintsLast_redeem (server : Server) (requestCode : String) (request : TokenRequest × Ambient) :
    MintsLast server (redeem server requestCode request) := by
  obtain ⟨raised, hraised⟩ | ⟨client, -, hread⟩ := redeem_cases server requestCode request
  · rw [hraised]
    trivial
  · rw [hread]
    refine fun db => ⟨?_, Or.inl rfl⟩
    dsimp only
    cases hfound : db.oauthCode (server.hashToken requestCode) with
    | none => trivial
    | some row => exact mintsLast_foundCode (Db.code_of_oauthCode hfound)

end Request

/-! ### Every schedule -/

section Requests

variable {ι : Type*} [DecidableEq ι]

/-- Any number of requests that present a code. -/
def redemptions (server : Server) (requestCode : String) (requests : ι → TokenRequest × Ambient) (db : Db) :
    Threads ι Db (Except OauthError TokenResponse) :=
  ⟨db, fun i => redeem server requestCode (requests i)⟩

/-- A request finds the code, and passes its checks, only while no other holds the code. -/
def RedeemsAlone (server : Server) (requestCode : String) (t : Threads ι Db (Except OauthError TokenResponse)) (i : ι) :
    Prop :=
  ∀ request client row, t.script i = redeem server requestCode request →
    findClient server request.1.clientId = .ok client →
    t.state.oauthCode (server.hashToken requestCode) = some row → Passes server request client row →
    ∀ j, j ≠ i → ¬HoldsCode server requestCode (t.script j)

/-- Then it does not come to hold it while another does. -/
theorem exclusive_of_redeemsAlone {server : Server} {requestCode : String}
    {t : Threads ι Db (Except OauthError TokenResponse)} {i : ι} (h : RedeemsAlone server requestCode t i) :
    (codeTicket server requestCode).Exclusive t i := by
  rintro ⟨request, hrequest⟩ hholds
  obtain ⟨raised, hraised⟩ | ⟨client, hclient, hread⟩ := redeem_cases server requestCode request
  · rw [Threads.advance_of_done (hrequest.trans hraised), hrequest.trans hraised] at hholds
    obtain ⟨client, row, ambient, ttl, -, hscript⟩ := hholds
    cases hscript
  · rw [Threads.advance_self (hrequest.trans hread)] at hholds
    cases hfound : t.state.oauthCode (server.hashToken requestCode) with
    | none =>
      rw [hfound] at hholds
      obtain ⟨client, row, ambient, ttl, -, hscript⟩ := hholds
      cases hscript
    | some row =>
      obtain ⟨hpasses, -⟩ | hrefused := @foundCode_cases server requestCode request client row
        (Db.code_of_oauthCode hfound)
      · exact h request client row hrequest hclient hfound hpasses
      · rw [hfound] at hholds
        obtain ⟨client', row', ambient, ttl, -, hscript⟩ := hholds
        change foundCode server requestCode request client row = _ at hscript
        rw [hscript] at hrefused
        generalize hshape : holding server client' row' ambient ttl = script at hrefused
        cases hrefused with
        | now raised => cases hshape
        | sweeping code raised => cases congrFun (Script.stmt.inj hshape).2 t.state

/-- What a run keeps while requests come to hold the code one at a time: one at most holds it, and
the refresh tokens are those of the beginning and one in the response of a request that is over. -/
structure RedeemedOnce (server : Server) (requestCode : String) (db : Db)
    (t : Threads ι Db (Except OauthError TokenResponse)) : Prop where
  held : ∃ stage, (codeTicket server requestCode).Held t stage
  mints : ∀ i, MintsLast server (t.script i)
  tokens : t.state.refreshTokens = db.refreshTokens ∨
    ∃ i response token row, t.Finished i (.ok response) ∧ response.refreshToken = some token ∧
      row.tokenId = server.hashToken token ∧ t.state.refreshTokens = db.refreshTokens ++ [row]

/-- The step lemma: who adds a refresh token is over, and is the only one to have had the code. -/
theorem redeemedOnce_advance {server : Server} {requestCode : String} {db : Db}
    {t : Threads ι Db (Except OauthError TokenResponse)} {i : ι} (h : RedeemedOnce server requestCode db t)
    (halone : RedeemsAlone server requestCode t i) : RedeemedOnce server requestCode db (t.advance i) := by
  obtain ⟨stage, hheld⟩ := h.held
  obtain ⟨stage', hheld'⟩ := (codeTicket server requestCode).held_advance hheld (exclusive_of_redeemsAlone halone)
  cases hscript : t.script i with
  | done result =>
    rw [Threads.advance_of_done hscript]
    exact h
  | stmt effect next =>
    have hmints := h.mints i
    rw [hscript] at hmints
    obtain ⟨hnext, heffect⟩ := hmints t.state
    have hself : (t.advance i).script i = next t.state := Threads.advance_self hscript
    have hstate : (t.advance i).state = effect t.state := by rw [Threads.advance_of_stmt hscript]
    refine ⟨⟨stage', hheld'⟩, fun j => ?_, ?_⟩
    · by_cases hj : j = i
      · rw [hj, hself]
        exact hnext
      · rw [Threads.advance_script_of_ne hj]
        exact h.mints j
    · -- a request that was over before stays over, and is another one
      have hover : ∀ {j response}, t.Finished j (.ok response) →
          j ≠ i ∧ (t.advance i).Finished j (.ok response) := by
        intro j response hj
        have hne : j ≠ i := by
          rintro rfl
          cases hscript.symm.trans hj
        exact ⟨hne, (Threads.advance_script_of_ne hne).trans hj⟩
      rw [hstate]
      obtain hsame | ⟨row, response, token, hadds, hdone, htoken, hhash⟩ := heffect
      · rw [hsame]
        obtain hinitial | ⟨j, response, token, row, hj, htoken, hhash, hrows⟩ := h.tokens
        · exact Or.inl hinitial
        · exact Or.inr ⟨j, response, token, row, (hover hj).2, htoken, hhash, hrows⟩
      · have hi : (t.advance i).Finished i (.ok response) := hself.trans hdone
        obtain hinitial | ⟨j, response', -, -, hj, -, -, -⟩ := h.tokens
        · exact Or.inr ⟨i, response, token, row, hi, htoken, hhash, by rw [hadds, hinitial]⟩
        · exact absurd (hheld'.one_winner (hover hj).2 hi ⟨response', rfl⟩ ⟨response, rfl⟩) (hover hj).1

/-- If requests come to hold a code one at a time, one at most is answered with tokens, and the
one refresh token that is added, if any is, is that of its response. -/
theorem code_redeemed_once (server : Server) (requestCode : String) (requests : ι → TokenRequest × Ambient) (db : Db)
    {schedule : List ι} (halone : (Threads.machine ι Db (Except OauthError TokenResponse)).Along
      (RedeemsAlone server requestCode) (redemptions server requestCode requests db) schedule) :
    let t := (Threads.machine ι Db (Except OauthError TokenResponse)).run (redemptions server requestCode requests db) schedule
    (∀ i j response response', t.Finished i (.ok response) → t.Finished j (.ok response') → i = j) ∧
      (t.state.refreshTokens = db.refreshTokens ∨
        ∃ i response token row, t.Finished i (.ok response) ∧ response.refreshToken = some token ∧
          row.tokenId = server.hashToken token ∧ t.state.refreshTokens = db.refreshTokens ++ [row]) := by
  intro t
  have hstart : RedeemedOnce server requestCode db (redemptions server requestCode requests db) :=
    ⟨⟨_, (codeTicket server requestCode).held_of_waiting fun i => ⟨requests i, rfl⟩⟩,
      fun i => mintsLast_redeem server requestCode (requests i), Or.inl rfl⟩
  have h : RedeemedOnce server requestCode db t :=
    (Threads.machine ι Db (Except OauthError TokenResponse)).run_of_step
      (fun t i hheld hok => redeemedOnce_advance hheld hok) hstart halone
  obtain ⟨stage, hheld⟩ := h.held
  exact ⟨fun i j response response' hi hj => hheld.one_winner hi hj ⟨response, rfl⟩ ⟨response', rfl⟩, h.tokens⟩

end Requests

/-! ### Two requests -/

/-- A server with one browser, and the digests of the texts below. -/
def smallServer : Server where
  clients := ⟨[browser "5882386c6d801776" "https://accounts.example"]⟩
  accessTokenTtl := 21600
  authorizationCodeTtl := 900
  issuer := "https://accounts.example"
  tokenserverUrl := "https://accounts.example/token"
  sha256Hex text :=
    if text = "cccccccccccccccccccccccccccccccccccccccccccccccccccccccccccccccc" then
      "52b6419d27bd7f547cee3b92f8c17a908b8a49601ecbec161e5030de1dfe9e0a"
    else if text = "1111111111111111111111111111111111111111111111111111111111111111" then
      "3138bb9bc78df27c473ecfd1410f7bd45ebac1f59cf3ff9cfe4db77aab7aedd3"
    else "4f2e8d65483c641648cdb374ae9d8abd368d269e4ddffe092a8237b8162cddd6"
  sha256B64u _ := "7w_YNF9DSfIdPf_pRjSq646_kPr-2-o9NAl16JGghdM"

/-- The code that is presented. -/
def smallCode : String := "cccccccccccccccccccccccccccccccccccccccccccccccccccccccccccccccc"

/-- A database with one account and that code, for the profile and offline. -/
def oneCode : Db :=
  { Db.fresh with
    accounts := [.blank "u" "u@accounts.example" 1]
    oauthCodes := [⟨"52b6419d27bd7f547cee3b92f8c17a908b8a49601ecbec161e5030de1dfe9e0a", "u", "5882386c6d801776", "profile",
      1000, 1000, some "7w_YNF9DSfIdPf_pRjSq646_kPr-2-o9NAl16JGghdM", some "S256", none, none, true⟩] }

/-- Two requests with the code and its verifier, a second later. -/
def presented (i : Fin 2) : TokenRequest × Ambient :=
  (⟨"authorization_code", "5882386c6d801776", some smallCode, some "vvvvvvvvvvvvvvvvvvvvvvvvvvvvvvvvvvvvvvvvvvv", none,
      none, none, none⟩,
    ⟨.ok none, fun _ => 2000, fun _ =>
      if i = 0 then "1111111111111111111111111111111111111111111111111111111111111111"
      else "2222222222222222222222222222222222222222222222222222222222222222"⟩)

/-- The two requests, in the order of a schedule. -/
def twoRedemptions (schedule : List (Fin 2)) : Threads (Fin 2) Db (Except OauthError TokenResponse) :=
  (Threads.machine (Fin 2) Db (Except OauthError TokenResponse)).run
    (redemptions smallServer smallCode presented oneCode) schedule

/-- The refresh token that a finished request was answered with. -/
def answered (t : Threads (Fin 2) Db (Except OauthError TokenResponse)) (i : Fin 2) : Option String :=
  match t.script i with
  | .done (.ok response) => response.refreshToken
  | _ => none

/-- A request that has not begun does not hold the code. -/
theorem not_holdsCode_redeem (server : Server) (requestCode : String) (request : TokenRequest × Ambient) :
    ¬HoldsCode server requestCode (redeem server requestCode request) := by
  rintro ⟨client, row, ambient, ttl, -, hscript⟩
  obtain ⟨raised, hraised⟩ | ⟨client', -, hread⟩ := redeem_cases server requestCode request
  · cases hraised.symm.trans hscript
  · -- without the code, one is over and the other is not
    cases congrFun (Script.stmt.inj (hread.symm.trans hscript)).2 Db.fresh

/-- One after the other: the first is answered with tokens, and the second is not. -/
theorem code_redeemed_once_replay :
    (∃ response, (twoRedemptions [0, 0, 0, 0, 1]).Finished 0 (.ok response)) ∧
      ¬∃ response, (twoRedemptions [0, 0, 0, 0, 1]).Finished 1 (.ok response) := by
  have hother : ∀ j : Fin 2, j ≠ 0 → j = 1 := by decide
  have hwaits : ∀ {t : Threads (Fin 2) Db (Except OauthError TokenResponse)},
      t.script 1 = redeem smallServer smallCode (presented 1) → RedeemsAlone smallServer smallCode t 0 := by
    intro t hscript request client row _ _ _ _ j hj
    rw [hother j hj, hscript]
    exact not_holdsCode_redeem _ _ _
  refine ⟨⟨_, rfl⟩, fun ⟨response, h⟩ => ?_⟩
  have hone := (@code_redeemed_once (Fin 2) _ smallServer smallCode presented oneCode [0, 0, 0, 0, 1]
    ⟨hwaits rfl, hwaits rfl, hwaits rfl, hwaits rfl, ?_, trivial⟩).1 0 1 _ response rfl h
  · exact absurd hone (by decide)
  · intro request client row _ _ hthere
    have hgone : (twoRedemptions [0, 0, 0, 0]).state.oauthCode (smallServer.hashToken smallCode) = none := by decide
    cases hgone.symm.trans hthere

/-- Two requests that both find the code before either deletes it are both answered with tokens, and
both refresh tokens are there. -/
theorem code_redeemed_twice :
    answered (twoRedemptions [0, 1, 0, 1, 0, 1, 0, 1]) 0 =
        some "1111111111111111111111111111111111111111111111111111111111111111" ∧
      answered (twoRedemptions [0, 1, 0, 1, 0, 1, 0, 1]) 1 =
        some "2222222222222222222222222222222222222222222222222222222222222222" ∧
      (twoRedemptions [0, 1, 0, 1, 0, 1, 0, 1]).state.refreshTokens.length = 2 := by decide

end FxaLite.OAuth
