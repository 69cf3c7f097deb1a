import Mathlib.Data.Rat.Floor
import Mathlib.Logic.Equiv.Nat
import Mathlib.Tactic.NormNum
import LiveSTT.Gateway.Backup
import LiveSTT.Gateway.LoginAfterSetup
import LiveSTT.Lib.Text

/-!
# Admin tokens

`POST /admin/auth` and `POST /setup` issue tokens, and the admin endpoints ask for one:
`require_admin` takes it from the header `Authorization` and decodes it with the secret of the
process. The secret is drawn anew at each start, and tokens expire after `ADMIN_TOKEN_TTL_S`
seconds.

What is signed and checked by the token library is a parameter, with what the code relies on. That
the clients cannot forge is an assumption about the runs (`honest`): whoever has not the secret
presents a token that does not decode, or one that was issued, and the secret of a new process
decodes no token of an old one.

Under it `accepted_iff` says who gets in: a header is accepted exactly if it carries a token that
this process issued and that has not expired. Every token was issued for a login that was let
through, or for a completed setup; once a hash is stored, only for a password that matches it, for a
login whose check could not read it, or for one in flight that had looked before it was there
(`accepted_after_setup`).
-/

namespace LiveSTT.AdminTokens

open TransitionSystem
open Backup (removePrefix)

/-! ### Tokens -/

/-- The claims of a token, in seconds. -/
structure Claims where
  exp : ℤ
  iat : ℤ

/-- The token library: `encode` signs the claims with a secret, `decode` returns the claims of a
token whose signature fits the secret. -/
structure Jwt where
  encode : Claims → String → String
  decode : String → String → Option Claims
  /-- A token decodes under its secret. -/
  decode_encode : ∀ c secret, decode (encode c secret) secret = some c
  /-- A token has no white space around it. -/
  strip_encode : ∀ c secret, Text.strip (encode c secret).toList = (encode c secret).toList
  encode_ne : ∀ c secret, encode c secret ≠ ""

/-- The claims of `create_token`, with `ADMIN_TOKEN_TTL_S`. -/
def claims (ttlS : ℤ) (now : ℚ) : Claims := ⟨⌊now + ttlS⌋, ⌊now⌋⟩

/-- `decode_token`, `none` where it raises. -/
def decodeToken (jwt : Jwt) (token secret : String) (now : ℚ) : Option Claims :=
  (jwt.decode token secret).filter fun c ↦ now < c.exp ∧ c.iat ≤ now

/-- The token of a header. -/
def bearer (authHeader : String) : String :=
  String.ofList (Text.strip (removePrefix authHeader "Bearer ").toList)

/-- `require_admin` lets the request through. A missing header is the empty one. -/
def requireAdmin (jwt : Jwt) (secret authHeader : String) (now : ℚ) : Bool :=
  if bearer authHeader = "" then false else (decodeToken jwt (bearer authHeader) secret now).isSome

/-! ### The system -/

/-- A token that was issued. -/
structure Issued where
  token : String
  /-- The position of its login or setup in the log. -/
  index : ℕ
  time : ℚ
  /-- The number of starts before. -/
  life : ℕ

structure State where
  auth : Gateway.State := {}
  now : ℚ := 0
  /-- `app.state.jwt_secret`. -/
  secret : String
  life : ℕ := 0
  issued : List Issued := []

inductive Action
  | tick (d : ℚ)
  /-- A step of the logins and the setups. -/
  | auth (a : Gateway.Action)
  /-- The process starts anew, with a secret. -/
  | restart (secret : String)
  /-- A request to an admin endpoint. -/
  | admin (authHeader : String)

section

variable (jwt : Jwt) (ttlS : ℤ) (checkpw : String → String → Bool)
  (hashpw : String → String → String)
  (env : String)

/-- The request is answered with a token. -/
def issues : Gateway.Event → Bool
  | .token _ _ | .configured _ => true
  | _ => false

/-- The tokens for what was logged from a position on. -/
def newTokens (s : State) (log : List Gateway.Event) : List Issued :=
  ((log.drop s.auth.log.length).zipIdx s.auth.log.length).filterMap fun p ↦
    if issues p.1 then some ⟨jwt.encode (claims ttlS s.now) s.secret, p.2, s.now, s.life⟩ else none

def step (s : State) : Action → Option State
  | .tick d => if 0 ≤ d then some { s with now := s.now + d } else none
  | .auth .restart => none
  | .auth a => (Gateway.step checkpw hashpw env s.auth a).map fun auth ↦
      { s with auth := auth, issued := s.issued ++ newTokens jwt ttlS s auth.log }
  | .restart secret => (Gateway.step checkpw hashpw env s.auth .restart).map fun auth ↦
      { s with auth := auth, secret := secret, life := s.life + 1 }
  -- The request is let through or refused; either way nothing of this changes.
  | .admin _ => some s

/-- api-gateway, started with some secret. -/
def system : TransitionSystem State Action where
  init s := (Gateway.system checkpw hashpw env).init s.auth ∧ s.now = 0 ∧ s.life = 0 ∧ s.issued = []
  step := step jwt ttlS checkpw hashpw env

/-- The header carries a token that does not decode, or one that was issued. -/
def Presentable (s : State) (authHeader : String) : Prop :=
  jwt.decode (bearer authHeader) s.secret = none ∨ ∃ i ∈ s.issued, i.token = bearer authHeader

/-- Nobody forges a token, and a new secret decodes no old one. -/
def honest (s : State) : Action → Prop
  | .admin authHeader => Presentable jwt s authHeader
  | .restart secret => ∀ i ∈ s.issued, jwt.decode i.token secret = none
  | _ => True

end

section

variable {jwt : Jwt} {ttlS : ℤ} {checkpw : String → String → Bool}
  {hashpw : String → String → String}
  {env : String} {s t : State}

/-! ### Logs -/

/-- The log of the logins only grows. -/
theorem log_of_step {s t : Gateway.State} {a : Gateway.Action}
    (ht : Gateway.step checkpw hashpw env s a = some t) : s.log <+: t.log := by
  cases a with
  | auth clientIp now password =>
    simp only [Gateway.step] at ht
    split at ht
    · obtain rfl := Option.some.inj ht
      exact List.prefix_rfl
    · obtain rfl := Option.some.inj ht
      exact List.prefix_append _ _
  | setup body =>
    simp only [Gateway.step] at ht
    split at ht
    · obtain rfl := Option.some.inj ht
      exact List.prefix_append _ _
    · obtain rfl := Option.some.inj ht
      exact List.prefix_rfl
  | answer i r salt =>
    simp only [Gateway.step] at ht
    split at ht
    · contradiction
    · rename_i request _
      obtain rfl := Option.some.inj ht
      cases request with
      | authReading login password => exact List.prefix_rfl
      | authClosing login password read =>
        simp only [Gateway.answer, Gateway.finishAuth, Gateway.State.logs, List.append_assoc]
        exact List.prefix_append _ _
      | setupReading body => exact List.prefix_rfl
      | setupClosing body read =>
        simp only [Gateway.answer, Gateway.continueSetup]
        split
        · split
          · exact List.prefix_append _ _
          · exact List.prefix_rfl
        · exact List.prefix_append _ _
      | setupCommitting body rows =>
        simp only [Gateway.answer, Gateway.finishSetup]
        split
        · exact List.prefix_append _ _
        · exact List.prefix_append _ _
  | restart =>
    obtain rfl := Option.some.inj ht
    exact List.prefix_rfl

/-- A new token is for an event that was logged since. -/
theorem mem_newTokens {log : List Gateway.Event} (hlog : s.auth.log <+: log) {i : Issued}
    (hi : i ∈ newTokens jwt ttlS s log) :
    i.token = jwt.encode (claims ttlS s.now) s.secret ∧ i.time = s.now ∧ i.life = s.life ∧
      ∃ e, log[i.index]? = some e ∧ issues e = true := by
  obtain ⟨⟨e, n⟩, hmem, hi⟩ := List.mem_filterMap.1 hi
  obtain ⟨hissues, rfl⟩ : issues e = true ∧
      ⟨jwt.encode (claims ttlS s.now) s.secret, n, s.now, s.life⟩ = i := by simpa using hi
  obtain ⟨more, rfl⟩ := hlog
  rw [List.drop_left] at hmem
  obtain ⟨hle, hget⟩ := List.mk_mem_zipIdx_iff_le_and_getElem?_sub.1 hmem
  refine ⟨rfl, rfl, rfl, e, ?_, hissues⟩
  rw [List.getElem?_append_right hle]
  exact hget

/-- What is in the log stays there. -/
theorem getElem?_of_prefix {α : Type} {xs ys : List α} (h : xs <+: ys) {n : ℕ} {x : α}
    (hx : xs[n]? = some x) : ys[n]? = some x := by
  obtain ⟨hlt, rfl⟩ := List.getElem?_eq_some_iff.1 hx
  exact List.prefix_iff_getElem?.1 h n hlt

/-! ### The invariant -/

/-- The tokens: when and for what they were issued, and which of them the secret decodes. -/
structure Kept (jwt : Jwt) (ttlS : ℤ) (s : State) : Prop where
  time : ∀ i ∈ s.issued, i.time ≤ s.now
  life : ∀ i ∈ s.issued, i.life ≤ s.life
  event : ∀ i ∈ s.issued, ∃ e, s.auth.log[i.index]? = some e ∧ issues e = true
  own : ∀ i ∈ s.issued, i.life = s.life → i.token = jwt.encode (claims ttlS i.time) s.secret
  old : ∀ i ∈ s.issued, i.life ≠ s.life → jwt.decode i.token s.secret = none

/-- A token is issued by a login; every other step leaves them alone, and the clock goes on. -/
theorem Kept.step {a : Action} (h : Kept jwt ttlS s) (hG : honest jwt s a)
    (ht : step jwt ttlS checkpw hashpw env s a = some t) : Kept jwt ttlS t := by
  obtain ⟨htime, hlife, hevent, hown, hold⟩ := h
  have hauth (a : Gateway.Action) {auth : Gateway.State}
      (hstep : Gateway.step checkpw hashpw env s.auth a = some auth) :
      Kept jwt ttlS
        { s with auth := auth, issued := s.issued ++ newTokens jwt ttlS s auth.log } := by
    have hlog := log_of_step hstep
    refine ⟨fun i hi ↦ ?_, fun i hi ↦ ?_, fun i hi ↦ ?_, fun i hi hi' ↦ ?_, fun i hi hi' ↦ ?_⟩
    · rcases List.mem_append.1 hi with hi | hi
      · exact htime i hi
      · exact (mem_newTokens hlog hi).2.1.le
    · rcases List.mem_append.1 hi with hi | hi
      · exact hlife i hi
      · exact (mem_newTokens hlog hi).2.2.1.le
    · rcases List.mem_append.1 hi with hi | hi
      · obtain ⟨e, he, hissues⟩ := hevent i hi
        exact ⟨e, getElem?_of_prefix hlog he, hissues⟩
      · exact (mem_newTokens hlog hi).2.2.2
    · rcases List.mem_append.1 hi with hi | hi
      · exact hown i hi hi'
      · obtain ⟨htoken, htime', -, -⟩ := mem_newTokens hlog hi
        rw [htoken, htime']
    · rcases List.mem_append.1 hi with hi | hi
      · exact hold i hi hi'
      · exact absurd (mem_newTokens hlog hi).2.2.1 hi'
  cases a with
  | tick d =>
    simp only [AdminTokens.step, Option.ite_none_right_eq_some, Option.some.injEq] at ht
    obtain ⟨hd, rfl⟩ := ht
    exact ⟨fun i hi ↦ (htime i hi).trans (by simpa using hd), hlife, hevent, hown, hold⟩
  | auth a =>
    cases a with
    | restart => contradiction
    | auth clientIp now password =>
      obtain ⟨auth, hstep, rfl⟩ := Option.map_eq_some_iff.1 ht
      exact hauth _ hstep
    | setup body =>
      obtain ⟨auth, hstep, rfl⟩ := Option.map_eq_some_iff.1 ht
      exact hauth _ hstep
    | answer i r salt =>
      obtain ⟨auth, hstep, rfl⟩ := Option.map_eq_some_iff.1 ht
      exact hauth _ hstep
  | restart secret =>
    simp only [AdminTokens.step, Gateway.step, Option.map_some, Option.some.injEq] at ht
    obtain rfl := ht
    refine ⟨htime, fun i hi ↦ (hlife i hi).trans (Nat.le_succ _), hevent, fun i hi hi' ↦ ?_,
      fun i hi _ ↦ hG i hi⟩
    have hle := hlife i hi
    have heq : i.life = s.life + 1 := hi'
    omega
  | admin authHeader =>
    obtain rfl := Option.some.inj ht
    exact ⟨htime, hlife, hevent, hown, hold⟩

theorem kept_of_reachable
    (hs : (system jwt ttlS checkpw hashpw env).Reachable (honest jwt) s) : Kept jwt ttlS s := by
  refine Inductive.reachable ⟨?_, fun h hG ht ↦ h.step hG ht⟩ hs
  intro s hs
  have hissued : s.issued = [] := hs.2.2.2
  exact ⟨by simp [hissued], by simp [hissued], by simp [hissued], by simp [hissued],
    by simp [hissued]⟩

/-! ### Who gets in -/

/-- The token in the header decodes to the claims it was issued with. -/
theorem Kept.decode (h : Kept jwt ttlS s) {i : Issued} (hi : i ∈ s.issued) {c : Claims}
    (hc : jwt.decode i.token s.secret = some c) : i.life = s.life ∧ c = claims ttlS i.time := by
  have hlife : i.life = s.life := by
    by_contra hne
    rw [h.old i hi hne] at hc
    contradiction
  rw [h.own i hi hlife, jwt.decode_encode] at hc
  exact ⟨hlife, (Option.some.inj hc).symm⟩

/-- An accepted header carries a token of the process. -/
theorem Kept.issued_of_accepted (h : Kept jwt ttlS s) {authHeader : String}
    (hheader : Presentable jwt s authHeader)
    (haccepted : requireAdmin jwt s.secret authHeader s.now = true) :
    ∃ i ∈ s.issued, i.life = s.life ∧ bearer authHeader = i.token ∧ s.now < ⌊i.time + ttlS⌋ := by
  rw [requireAdmin, decodeToken] at haccepted
  split at haccepted
  · contradiction
  · rcases hheader with hnone | ⟨i, hi, htoken⟩
    · simp [hnone] at haccepted
    · rcases hc : jwt.decode (bearer authHeader) s.secret with - | c
      · simp [hc] at haccepted
      · rw [hc] at haccepted
        obtain ⟨hlife, rfl⟩ := h.decode hi (htoken ▸ hc)
        rw [Option.isSome_filter] at haccepted
        simp only [Option.any_some, decide_eq_true_eq] at haccepted
        exact ⟨i, hi, hlife, htoken.symm, haccepted.1⟩

/-- And any such header is accepted. -/
theorem Kept.accepted (h : Kept jwt ttlS s) {i : Issued} (hi : i ∈ s.issued)
    (hlife : i.life = s.life) {authHeader : String} (htoken : bearer authHeader = i.token)
    (hexp : s.now < ⌊i.time + ttlS⌋) : requireAdmin jwt s.secret authHeader s.now = true := by
  have hown := h.own i hi hlife
  have hiat : (⌊i.time⌋ : ℚ) ≤ s.now := (Int.floor_le i.time).trans (h.time i hi)
  rw [requireAdmin, decodeToken, htoken, hown, if_neg (jwt.encode_ne _ _), jwt.decode_encode,
    Option.isSome_filter]
  simp only [Option.any_some, decide_eq_true_eq]
  exact ⟨hexp, hiat⟩

/-- **Who gets in**, in every run in which nobody forges: a header is accepted exactly if its token
was issued by this process and has not expired; and each token was issued for a login that was let
through or a completed setup. -/
theorem accepted_iff (hs : (system jwt ttlS checkpw hashpw env).Reachable (honest jwt) s)
    {authHeader : String} (hheader : Presentable jwt s authHeader) :
    (requireAdmin jwt s.secret authHeader s.now = true ↔
      ∃ i ∈ s.issued, i.life = s.life ∧ bearer authHeader = i.token ∧ s.now < ⌊i.time + ttlS⌋) ∧
    ∀ i ∈ s.issued, ∃ e, s.auth.log[i.index]? = some e ∧ issues e = true := by
  have h := kept_of_reachable hs
  refine ⟨⟨h.issued_of_accepted hheader, ?_⟩, h.event⟩
  rintro ⟨i, hi, hlife, htoken, hexp⟩
  exact h.accepted hi hlife htoken hexp

/-! ### A token library -/

/-- A time, in strokes. -/
def strokes (z : ℤ) : List Char := List.replicate (Equiv.intEquivNat z) 'a'

/-- The claims in strokes, then the secret: a signature that only shows whose it is. -/
def strokeToken (c : Claims) (secret : String) : String :=
  String.ofList (strokes c.exp ++ '.' :: (strokes c.iat ++ '.' :: (secret.toList ++ ['.'])))

/-- The claims that the strokes of a token say. -/
def strokeClaims (token : List Char) : Claims :=
  let exp := token.takeWhile (· = 'a')
  let iat := (token.drop (exp.length + 1)).takeWhile (· = 'a')
  ⟨Equiv.intEquivNat.symm exp.length, Equiv.intEquivNat.symm iat.length⟩

theorem takeWhile_strokes (z : ℤ) (rest : List Char) :
    (strokes z ++ '.' :: rest).takeWhile (· = 'a') = strokes z := by
  rw [strokes, List.takeWhile_append_of_pos (by simp), List.takeWhile_cons_of_neg (by simp),
    List.append_nil]

theorem strokeClaims_strokeToken (c : Claims) (secret : String) :
    strokeClaims (strokeToken c secret).toList = c := by
  have hdrop : (strokes c.exp ++ '.' :: (strokes c.iat ++ '.' :: (secret.toList ++ ['.']))).drop
      ((strokes c.exp).length + 1) = strokes c.iat ++ '.' :: (secret.toList ++ ['.']) := by
    rw [List.drop_length_add_append, List.drop_one, List.tail_cons]
  rw [strokeToken, String.toList_ofList, strokeClaims, takeWhile_strokes, hdrop, takeWhile_strokes]
  simp [strokes]

/-- No white space at either end, nothing to strip. -/
theorem strip_of_ends {a b : Char} {cs : List Char} (ha : Text.isSpace a = false)
    (hb : Text.isSpace b = false) : Text.strip (a :: (cs ++ [b])) = a :: (cs ++ [b]) := by
  rw [Text.strip, List.dropWhile_cons_of_neg (by simp [ha]), ← List.cons_append,
    List.reverse_append,
    List.reverse_singleton, List.singleton_append, List.dropWhile_cons_of_neg (by simp [hb]),
    List.reverse_cons, List.reverse_reverse]

/-- A token has no blank at its ends. -/
theorem strip_strokeToken (c : Claims) (secret : String) :
    Text.strip (strokeToken c secret).toList = (strokeToken c secret).toList := by
  have hends (z : ℤ) (rest : List Char) : ∃ a cs, Text.isSpace a = false ∧
      strokes z ++ '.' :: (rest ++ ['.']) = a :: (cs ++ ['.']) := by
    rcases hn : Equiv.intEquivNat z with - | n
    · exact ⟨'.', rest, by decide, by simp [strokes, hn]⟩
    · exact ⟨'a', List.replicate n 'a' ++ '.' :: rest, by decide, by
        simp [strokes, hn, List.replicate_succ]⟩
  obtain ⟨a, cs, ha, hcs⟩ := hends c.exp (strokes c.iat ++ '.' :: secret.toList)
  have htoken : (strokeToken c secret).toList = a :: (cs ++ ['.']) := by
    rw [strokeToken, String.toList_ofList, ← hcs]
    simp
  rw [htoken]
  exact strip_of_ends ha (by decide)

/-- A token library that issues and checks as the real one does, without its cryptography. -/
def strokeJwt : Jwt where
  encode := strokeToken
  decode token secret :=
    if strokeToken (strokeClaims token.toList) secret = token then some (strokeClaims token.toList)
    else none
  decode_encode c secret := by
    rw [strokeClaims_strokeToken, if_pos rfl]
  strip_encode := strip_strokeToken
  encode_ne c secret h := by
    simpa [strokeToken] using congrArg String.toList h

/-- The header of a client with a token. -/
theorem bearer_append {token : String} (h : Text.strip token.toList = token.toList) :
    bearer ("Bearer " ++ token) = token := by
  rw [bearer, Backup.removePrefix_append, h, String.ofList_toList]

/-- Only logins, setups and their answers. -/
def onlyAuth (_ : State) : Action → Bool
  | .auth _ => true
  | _ => false

/-- In these nobody presents a token. -/
theorem honest_of_onlyAuth (s : State) (a : Action) (h : onlyAuth s a = true) : honest jwt s a := by
  cases a with
  | auth a => trivial
  | _ => contradiction

/-- The token of a client that has just got one. -/
theorem bearer_own {i : Issued} (h : Kept strokeJwt ttlS s) (hi : i ∈ s.issued)
    (hlife : i.life = s.life) : bearer ("Bearer " ++ i.token) = i.token :=
  bearer_append (by rw [h.own i hi hlife]; exact strokeJwt.strip_encode _ _)

/-- In dev mode any password gets a token, and the token is accepted. -/
theorem accepted_iff_devMode : ∃ s authHeader,
    (system strokeJwt 3600 Gateway.plainCheck Gateway.plainHash "").Reachable (honest strokeJwt) s ∧
      requireAdmin strokeJwt s.secret authHeader s.now = true := by
  obtain ⟨s, hs, htest⟩ := exists_reachable_of_exec
    (M := system strokeJwt 3600 Gateway.plainCheck Gateway.plainHash "")
    (G := fun s a ↦ onlyAuth s a = true) { secret := "5e7" }
    ((Gateway.login "anything" .ok).map .auth)
    (fun s ↦ s.now = 0 ∧ s.issued.any fun i ↦ i.life = s.life ∧ i.time = 0) ⟨rfl, rfl, rfl, rfl⟩
    (by decide +kernel)
  have hreach : (system strokeJwt 3600 Gateway.plainCheck Gateway.plainHash "").Reachable
      (honest strokeJwt) s := by
    obtain ⟨s₀, as, hs₀, hrun⟩ := hs
    exact ⟨s₀, as, hs₀, hrun.mono honest_of_onlyAuth⟩
  obtain ⟨hnow, hissued⟩ : s.now = 0 ∧ ∃ i ∈ s.issued, i.life = s.life ∧ i.time = 0 := by
    simpa using htest
  obtain ⟨i, hi, hlife, htime⟩ := hissued
  have hbearer := bearer_own (kept_of_reachable hreach) hi hlife
  refine ⟨s, "Bearer " ++ i.token, hreach, ?_⟩
  refine (accepted_iff hreach (Or.inr ⟨i, hi, hbearer.symm⟩)).1.2 ⟨i, hi, hlife, hbearer, ?_⟩
  rw [hnow, htime]
  norm_num

/-! ### After the setup -/

/-- The logins and setups of a run are a run of their own. -/
theorem refines_auth : (system jwt ttlS checkpw hashpw env).Refines (honest jwt)
    (Gateway.system checkpw hashpw env) always State.auth where
  init s hs := by
    exact hs.1
  step {s a t} _ ht := by
    cases a with
    | tick d =>
      have hstep : step jwt ttlS checkpw hashpw env s (.tick d) = some t := ht
      simp only [step, Option.ite_none_right_eq_some, Option.some.injEq] at hstep
      obtain ⟨-, rfl⟩ := hstep
      exact ⟨[], Run.nil⟩
    | auth a =>
      cases a with
      | restart => contradiction
      | auth clientIp now password =>
        obtain ⟨auth, hstep, rfl⟩ := Option.map_eq_some_iff.1 ht
        exact ⟨[.auth clientIp now password], Run.single trivial hstep⟩
      | setup body =>
        obtain ⟨auth, hstep, rfl⟩ := Option.map_eq_some_iff.1 ht
        exact ⟨[.setup body], Run.single trivial hstep⟩
      | answer i r salt =>
        obtain ⟨auth, hstep, rfl⟩ := Option.map_eq_some_iff.1 ht
        exact ⟨[.answer i r salt], Run.single trivial hstep⟩
    | restart secret =>
      have hstep : step jwt ttlS checkpw hashpw env s (.restart secret) = some t := ht
      simp only [step, Gateway.step, Option.map_some, Option.some.injEq] at hstep
      obtain rfl := hstep
      exact ⟨[.restart], Run.single trivial rfl⟩
    | admin authHeader =>
      obtain rfl := Option.some.inj ht
      exact ⟨[], Run.nil⟩

/-- Once a hash is stored no setup completes: its commit adds a key that is there. -/
theorem not_configured_of_step {s₀ s t : Gateway.State} {a : Gateway.Action} {h : String}
    (hs : Gateway.SetUp checkpw h s₀ s)
    (ht : Gateway.step checkpw hashpw "" s a = some t) :
    ∃ es, t.log = s.log ++ es ∧ ∀ body, .configured body ∉ es := by
  cases a with
  | auth clientIp now password =>
    simp only [Gateway.step] at ht
    split at ht
    · obtain rfl := Option.some.inj ht
      exact ⟨[], (List.append_nil _).symm, by simp⟩
    · obtain rfl := Option.some.inj ht
      exact ⟨_, rfl, by simp⟩
  | setup body =>
    simp only [Gateway.step] at ht
    split at ht
    · obtain rfl := Option.some.inj ht
      exact ⟨_, rfl, by simp⟩
    · obtain rfl := Option.some.inj ht
      exact ⟨[], (List.append_nil _).symm, by simp⟩
  | answer i r salt =>
    simp only [Gateway.step] at ht
    split at ht
    · contradiction
    · rename_i request hget
      obtain rfl := Option.some.inj ht
      cases request with
      | authReading login password => exact ⟨[], (List.append_nil _).symm, by simp⟩
      | authClosing login password read =>
        simp only [Gateway.answer, Gateway.finishAuth, Gateway.State.logs, List.append_assoc]
        refine ⟨_, rfl, fun body hmem ↦ ?_⟩
        rcases List.mem_append.1 hmem with hmem | hmem
        · split at hmem <;> simp at hmem
        · split at hmem <;> simp at hmem
      | setupReading body => exact ⟨[], (List.append_nil _).symm, by simp⟩
      | setupClosing body read =>
        simp only [Gateway.answer, Gateway.continueSetup]
        split
        · split
          · exact ⟨_, rfl, by simp⟩
          · exact ⟨[], (List.append_nil _).symm, by simp⟩
        · exact ⟨_, rfl, by simp⟩
      | setupCommitting body rows =>
        have hnone : s.config.insert rows = none :=
          Gateway.AppConfig.insert_eq_none hs.stored (hs.backed _ (List.mem_of_getElem? hget))
        simp only [Gateway.answer, Gateway.finishSetup, hnone]
        exact ⟨_, rfl, by simp⟩
  | restart =>
    obtain rfl := Option.some.inj ht
    exact ⟨[], (List.append_nil _).symm, by simp⟩

/-- A password that is set up is not set up again. -/
theorem not_configured_of_run {s t : Gateway.State} {as : List Gateway.Action} {h : String}
    (hs : Gateway.SetUp checkpw h s s) (hne : h ≠ "")
    (hrun : (Gateway.system checkpw hashpw "").Run always s as t) :
    ∃ es, t.log = s.log ++ es ∧ ∀ body, .configured body ∉ es := by
  refine (hrun.invariant (I := fun t ↦ Gateway.SetUp checkpw h s t ∧
    ∃ es, t.log = s.log ++ es ∧ ∀ body, .configured body ∉ es) ?_ ⟨hs, [], (List.append_nil _).symm,
      by simp⟩).2
  rintro u a v ⟨hu, es, hlog, hes⟩ _ hv
  obtain ⟨es', hlog', hes'⟩ := not_configured_of_step hu hv
  refine ⟨hu.step hne hv, es ++ es', by rw [hlog', hlog, List.append_assoc], fun body hmem ↦ ?_⟩
  rcases List.mem_append.1 hmem with hmem | hmem
  · exact hes body hmem
  · exact hes' body hmem

/-- **Who gets in once a hash is stored**: in every run from there on in which nobody forges, a
header that is accepted carries a token of this process that was issued before the hash was seen
stored, or for a login whose password matches the hash, or for one whose check could not read the
hash, or for one that was in flight then and had read that none was stored. -/
theorem accepted_after_setup {as : List Action} {h authHeader : String}
    (hs : (system jwt ttlS checkpw hashpw "").Reachable (honest jwt) s)
    (hstored : s.auth.config.get "admin_password_hash" = some h) (hne : h ≠ "")
    (hrun : (system jwt ttlS checkpw hashpw "").Run (honest jwt) s as t)
    (hheader : Presentable jwt t authHeader)
    (haccepted : requireAdmin jwt t.secret authHeader t.now = true) :
    ∃ i ∈ t.issued, i.life = t.life ∧ bearer authHeader = i.token ∧
      (i.index < s.auth.log.length ∨ ∃ login p, t.auth.log[i.index]? = some (.token login p) ∧
        (checkpw p h = true ∨ .readRaised login p ∈ t.auth.log.drop s.auth.log.length ∨
          .authClosing login p (some "") ∈ s.auth.requests)) := by
  have hkept := kept_of_reachable (hs.run hrun)
  obtain ⟨i, hi, hlife, htoken, -⟩ := hkept.issued_of_accepted hheader haccepted
  refine ⟨i, hi, hlife, htoken, ?_⟩
  by_cases hindex : i.index < s.auth.log.length
  · exact Or.inl hindex
  · have hbefore : (Gateway.system checkpw hashpw "").Reachable always s.auth :=
      refines_auth.reachable hs
    obtain ⟨bs, hbs⟩ : ∃ bs, (Gateway.system checkpw hashpw "").Run always s.auth bs t.auth :=
      refines_auth.run hrun
    obtain ⟨es, hlog, hconfigured⟩ :=
      not_configured_of_run (Gateway.setUp_run hbefore hstored hne Run.nil) hne hbs
    obtain ⟨es', hlog', hjudged⟩ := (Gateway.setUp_run hbefore hstored hne hbs).judged
    obtain rfl : es = es' := List.append_cancel_left (hlog.symm.trans hlog')
    obtain ⟨e, he, hissues⟩ := hkept.event i hi
    have hmem : e ∈ es := by
      rw [hlog, List.getElem?_append_right (not_lt.1 hindex)] at he
      exact List.mem_of_getElem? he
    cases e with
    | token login p =>
      refine Or.inr ⟨login, p, he, ?_⟩
      rw [hlog, List.drop_left]
      exact hjudged.token login p hmem
    | configured body => exact absurd hmem (hconfigured body)
    | _ => simp [issues] at hissues

/-- A login with the right password after the setup. -/
theorem accepted_after_setup_matching : ∃ s t : State, ∃ authHeader, ∃ i ∈ t.issued,
    s.auth.config.get "admin_password_hash" = some (Gateway.plainHash "correct horse" "$2b$12$") ∧
      requireAdmin strokeJwt t.secret authHeader t.now = true ∧ bearer authHeader = i.token := by
  obtain ⟨s, t, hs, hrun, htest⟩ := exists_run_of_exec
    (M := system strokeJwt 3600 Gateway.plainCheck Gateway.plainHash "")
    (G := fun s a ↦ onlyAuth s a = true) { secret := "5e7" }
    (Gateway.setUp.map .auth) ((Gateway.login "correct horse" .ok).map .auth)
    (fun s t ↦ s.auth.config.get "admin_password_hash" =
        some (Gateway.plainHash "correct horse" "$2b$12$") ∧ t.now = 0 ∧
      t.issued.any fun i ↦ i.life = t.life ∧ i.time = 0) ⟨rfl, rfl, rfl, rfl⟩
    (by decide +kernel)
  obtain ⟨s₀, as, hs₀, hrun₀⟩ := hs
  have hreach : (system strokeJwt 3600 Gateway.plainCheck Gateway.plainHash "").Reachable
      (honest strokeJwt) s := ⟨s₀, as, hs₀, hrun₀.mono honest_of_onlyAuth⟩
  have hrun' := hrun.mono (H := honest strokeJwt) honest_of_onlyAuth
  obtain ⟨hstored, hnow, hissued⟩ : s.auth.config.get "admin_password_hash" =
      some (Gateway.plainHash "correct horse" "$2b$12$") ∧ t.now = 0 ∧
        ∃ i ∈ t.issued, i.life = t.life ∧ i.time = 0 := by
    simpa using htest
  obtain ⟨i, hi, hlife, htime⟩ := hissued
  have hkept := kept_of_reachable (hreach.run hrun')
  have hbearer := bearer_own hkept hi hlife
  have haccepted := hkept.accepted hi hlife hbearer (by rw [hnow, htime]; norm_num)
  obtain ⟨i', hi', -, htoken, -⟩ := accepted_after_setup hreach hstored (by decide) hrun'
    (Or.inr ⟨i, hi, hbearer.symm⟩) haccepted
  exact ⟨s, t, _, i', hi', hstored, haccepted, htoken⟩

end

end LiveSTT.AdminTokens
