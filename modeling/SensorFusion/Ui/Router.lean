import SensorFusion.Lib.Except
import SensorFusion.Python.Json

/-!
# Calls of the router's API

`_api_call` logs in if it has no token that is still good, makes the call, and once more with a
new token if the router has refused the first one (`edge/routes.py`).  What the router answers
is left open: a reply for each exchange that may be made.

A call should give the data or nothing, and not raise.  Its own exchanges are guarded; the login
before it is not.
-/

namespace SensorFusion.Ui.Router

/-! ## Exchanges -/

/-- What an exchange with the router comes to. -/
inductive Reply where
  /-- `HTTPError`. -/
  | status (code : ℤ)
  /-- `URLError`, `TimeoutError` or another `OSError`. -/
  | unreachable (exc : String)
  /-- Any other exception, such as that of bytes that are not UTF-8. -/
  | raised (exc : String)
  /-- `JSONDecodeError`. -/
  | not_json (exc : String)
  | answered (payload : Json)

/-- The replies to the exchanges of an attempt, as far as they are made, and the readings of the
clock before and after the login. -/
structure Attempt where
  now : ℚ
  login : Reply
  logged_in : ℚ
  call : Reply

/-- An exchange that was made. -/
inductive Event where
  | login (reply : Reply)
  | call (token : Json) (reply : Reply)

/-- `EdgeNodeController`. -/
structure Controller where
  token : Json
  token_expires_at : PyFloat

def Controller.init : Controller := ⟨.null, .fin 0⟩

/-- The environment: `ROUTER_PASSWORD`, and `repr` for the texts of exceptions. -/
structure Env where
  password : Text
  repr : Json → String

/-- How a function of the controller ends, and what it has done. -/
structure Outcome (α : Type) where
  result : Except String α
  controller : Controller
  events : List Event

variable (env : Env)

/-! ## `_login` -/

/-- `x[f]` for a string `f`. -/
def item (j : Json) (f : String) : Except String Json :=
  match j with
  | .obj members =>
      match (Dict.ofList members).get? f with
      | some x => .ok x
      | none => .error ("KeyError: '" ++ f ++ "'")
  | .str _ => .error "string indices must be integers, not 'str'"
  | .arr _ => .error "list indices must be integers or slices, not str"
  | j => .error ("'" ++ j.className ++ "' object is not subscriptable")

/-- `x.get(f, default)`. -/
def getD (j : Json) (f : String) (default : Json) : Except String Json :=
  match j with
  | .obj members => .ok (((Dict.ofList members).get? f).getD default)
  | j => .error ("'" ++ j.className ++ "' object has no attribute 'get'")

/-- The token in the answer to a login, and how long it is good. -/
def readToken (data : Json) : Except String (Json × PyFloat) := do
  let success ← data.get "success"
  if success.truthy then
    let tok ← item (← item data "data") "token"
    let exp ← (← getD (← item data "data") "expires" (.int 60)).float? env.repr
    pure (tok, exp)
  else .error ("HTTPException(500): router login failed: " ++ env.repr data)

/-- `time.time() + max(exp - 5.0, 10.0)`; of a NaN, `max` gives the NaN. -/
def expiresAt (now : ℚ) : PyFloat → PyFloat
  | .fin exp => .fin (now + max (exp - 5) 10)
  | .posInf => .posInf
  | .negInf => .fin (now + 10)
  | .nan => .nan

def login (s : Controller) (a : Attempt) : Outcome Json :=
  if env.password = [] then ⟨.error "HTTPException(500): ROUTER_PASSWORD env not set", s, []⟩
  else
    match a.login with
    | .status code => ⟨.error ("HTTPError " ++ toString code), s, [.login a.login]⟩
    | .unreachable exc | .raised exc | .not_json exc => ⟨.error exc, s, [.login a.login]⟩
    | .answered data =>
        match readToken env data with
        | .error exc => ⟨.error exc, s, [.login a.login]⟩
        | .ok (tok, exp) => ⟨.ok tok, ⟨tok, expiresAt a.logged_in exp⟩, [.login a.login]⟩

/-- The token is missing or has expired. -/
def stale (s : Controller) (now : ℚ) : Bool :=
  !s.token.truthy || PyFloat.ge (.fin now) s.token_expires_at

/-- `_token_for`. -/
def tokenFor (s : Controller) (a : Attempt) : Outcome Json :=
  if stale s a.now then login env s a else ⟨.ok s.token, s, []⟩

/-! ## `_api_call` -/

/-- What a call returns for the document that it was answered; `None` is `null`. -/
def unwrap (payload : Json) : Json :=
  match payload with
  | .obj members =>
      match (Dict.ofList members).get? "success" with
      | some success =>
          if success.truthy then ((Dict.ofList members).get? "data").getD .null else .null
      | none => payload
  | payload => payload

/-- The attempts from number `attempt` on. -/
def attempts : ℕ → List Attempt → Controller → Outcome Json
  | _, [], s => ⟨.ok .null, s, []⟩
  | attempt, a :: rest, s =>
      let token := tokenFor env s a
      match token.result with
      | .error exc => ⟨.error exc, token.controller, token.events⟩
      | .ok tok =>
          let events := token.events ++ [.call tok a.call]
          match a.call with
          | .status code =>
              if code = 401 ∧ attempt = 0 then
                let next := attempts (attempt + 1) rest { token.controller with token := .null }
                { next with events := events ++ next.events }
              else ⟨.ok .null, token.controller, events⟩
          | .unreachable _ | .not_json _ => ⟨.ok .null, token.controller, events⟩
          | .raised exc => ⟨.error exc, token.controller, events⟩
          | .answered payload => ⟨.ok (unwrap payload), token.controller, events⟩

/-- `_api_call`. -/
def apiCall (s : Controller) (first second : Attempt) : Outcome Json :=
  attempts env 0 [first, second] s

/-! ## What a call should be -/

/-- The calls among some exchanges, with the tokens they were made with. -/
def callsOf (events : List Event) : List (Json × Reply) :=
  events.filterMap fun
    | .call tok reply => some (tok, reply)
    | .login _ => none

/-- An exchange that gives nothing to return: a login that is not followed by a call, or a call
that is not answered, or not with success. -/
def Failed : Event → Prop
  | .login _ => True
  | .call _ (.answered (.obj members)) =>
      ∃ success, (Dict.ofList members).get? "success" = some success ∧ success.truthy = false
  | .call _ (.answered _) => False
  | .call _ _ => True

/-- A call does not raise.  It returns the data of an envelope and nothing on a failure.  It
makes two attempts at most, the second one with a new token after the first was refused. -/
structure Degrades (o : Outcome Json) : Prop where
  quiet : ∃ v, o.result = .ok v
  data : ∀ tok payload success d, o.events.getLast? = some (.call tok (.answered payload)) →
    payload.get "success" = .ok success → success.truthy = true → payload.get "data" = .ok d →
      o.result = .ok d
  nothing : ∀ e, o.events.getLast? = some e → Failed e → o.result = .ok .null
  calls : (callsOf o.events).length ≤ 2
  retry : ∀ c c', callsOf o.events = [c, c'] → c.2 = .status 401 ∧
    ∃ front data exp, o.events = front ++ [.login (.answered data), .call c'.1 c'.2] ∧
      readToken env data = .ok (c'.1, exp)

/-- An exchange ends in an exception that a call does not catch. -/
def Raises (reply : Reply) : Prop := ∃ exc, reply = .raised exc

/-- A login that comes to a token: there is a password, and the answer is a success with a token
and a time that is a number. -/
structure LoggedIn (reply : Reply) : Prop where
  password : env.password ≠ []
  answered : ∃ members data success expires, reply = .answered (.obj members) ∧
    (Dict.ofList members).get? "success" = some success ∧ success.truthy = true ∧
    (Dict.ofList members).get? "data" = some (.obj data) ∧ "token" ∈ Dict.ofList data ∧
    (((Dict.ofList data).get? "expires").getD (.int 60)).float? env.repr = .ok expires

/-- Each login that is needed succeeds, and no call ends in an exception that is not caught. -/
structure Smooth (s : Controller) (first second : Attempt) : Prop where
  login : stale s first.now = true → LoggedIn env first.login
  call : ¬ Raises first.call
  again : first.call = .status 401 → LoggedIn env second.login ∧ ¬ Raises second.call

/-! ### Logging in -/

variable {env} {s : Controller} {a : Attempt}

theorem item_eq_ok {j x : Json} {f : String} (h : item j f = .ok x) :
    ∃ members, j = .obj members ∧ (Dict.ofList members).get? f = some x := by
  cases j with
  | obj members =>
      rw [item] at h
      split at h
      · rename_i y hy
        cases h
        exact ⟨members, rfl, hy⟩
      · cases h
  | _ => cases h

/-- A value that is not nothing is there. -/
theorem get_eq_ok {j x : Json} {f : String} (h : j.get f = .ok x) (hx : x.truthy = true) :
    ∃ members, j = .obj members ∧ (Dict.ofList members).get? f = some x := by
  cases j with
  | obj members =>
      refine ⟨members, rfl, ?_⟩
      cases hget : (Dict.ofList members).get? f with
      | none =>
          rw [Json.get, hget] at h
          cases h
          cases hx
      | some y =>
          rw [Json.get, hget] at h
          cases h
          rfl
  | _ => cases h

theorem readToken_ok_iff {data : Json} : (∃ res, readToken env data = .ok res) ↔
    ∃ members inner success expires, data = .obj members ∧
      (Dict.ofList members).get? "success" = some success ∧ success.truthy = true ∧
      (Dict.ofList members).get? "data" = some (.obj inner) ∧ "token" ∈ Dict.ofList inner ∧
      (((Dict.ofList inner).get? "expires").getD (.int 60)).float? env.repr = .ok expires := by
  constructor
  · rintro ⟨res, h⟩
    obtain ⟨success, hsuccess, hrest⟩ := bind_eq_ok.mp h
    split at hrest
    · rename_i htruthy
      obtain ⟨members, rfl, hget⟩ := get_eq_ok hsuccess htruthy
      obtain ⟨data, hdata, htail⟩ := bind_eq_ok.mp hrest
      obtain ⟨tok, htok, hexp⟩ := bind_eq_ok.mp htail
      obtain ⟨_, heq, hinner⟩ := item_eq_ok hdata
      cases heq
      obtain ⟨inner, rfl, htoken⟩ := item_eq_ok htok
      simp only [hdata, getD, bind, Except.bind] at hexp
      obtain ⟨expires, hexpires, -⟩ := bind_eq_ok.mp hexp
      exact ⟨members, inner, success, expires, rfl, hget, htruthy, hinner,
        Dict.mem_iff_get?.mpr ⟨tok, htoken⟩, hexpires⟩
    · cases hrest
  · rintro ⟨members, inner, success, expires, rfl, hsuccess, htruthy, hdata, htoken, hexpires⟩
    obtain ⟨tok, htok⟩ := Dict.mem_iff_get?.mp htoken
    refine ⟨(tok, expires), ?_⟩
    simp only [readToken, Json.get, hsuccess, htruthy, item, hdata, htok, getD, hexpires,
      Option.getD_some, if_true, bind, Except.bind, pure, Except.pure]

/-- A login is made and comes to a token, or raises. -/
theorem login_cases (env : Env) (s : Controller) (a : Attempt) :
    (LoggedIn env a.login ∧ ∃ data tok exp, readToken env data = .ok (tok, exp) ∧
      login env s a = ⟨.ok tok, ⟨tok, expiresAt a.logged_in exp⟩, [.login (.answered data)]⟩) ∨
    ¬ LoggedIn env a.login ∧ ∃ exc, (login env s a).result = .error exc := by
  by_cases hpassword : env.password = []
  · refine .inr ⟨fun h ↦ h.password hpassword, ?_⟩
    rw [login, if_pos hpassword]
    exact ⟨_, rfl⟩
  rw [login, if_neg hpassword]
  cases hreply : a.login with
  | answered data =>
      cases hread : readToken env data with
      | ok res =>
          obtain ⟨members, inner, success, expires, rfl, h⟩ := readToken_ok_iff.mp ⟨res, hread⟩
          exact .inl ⟨⟨hpassword, members, inner, success, expires, rfl, h⟩, _, res.1, res.2, hread,
            by simp only [hread]⟩
      | error exc =>
          refine .inr ⟨fun h ↦ ?_, exc, by simp only [hread]⟩
          obtain ⟨members, inner, success, expires, heq, hdata⟩ := h.answered
          cases heq
          obtain ⟨res, hres⟩ := readToken_ok_iff.mpr ⟨members, inner, success, expires, rfl, hdata⟩
          rw [hread] at hres
          cases hres
  | _ =>
      refine .inr ⟨fun h ↦ ?_, _, rfl⟩
      obtain ⟨_, _, _, _, heq, -⟩ := h.answered
      cases heq

/-- Without a login the cached token is taken. -/
theorem tokenFor_cases (env : Env) (s : Controller) (a : Attempt) :
    ((stale s a.now = true → LoggedIn env a.login) ∧ ∃ tok s' events,
      tokenFor env s a = ⟨.ok tok, s', events⟩ ∧ callsOf events = []) ∨
    (stale s a.now = true ∧ ¬ LoggedIn env a.login) ∧
      ∃ exc, (tokenFor env s a).result = .error exc := by
  rw [tokenFor]
  split
  · rename_i hstale
    rcases login_cases env s a with ⟨hin, data, tok, exp, -, heq⟩ | ⟨hout, hexc⟩
    · exact .inl ⟨fun _ ↦ hin, tok, _, _, heq, rfl⟩
    · exact .inr ⟨⟨hstale, hout⟩, hexc⟩
  · rename_i hstale
    exact .inl ⟨fun h ↦ absurd h hstale, _, _, _, rfl, rfl⟩

/-! ### Ending with a call -/

/-- What is returned after a call that is not made again. -/
inductive Settles : Reply → Json → Prop where
  | status (code : ℤ) : Settles (.status code) .null
  | unreachable (exc : String) : Settles (.unreachable exc) .null
  | not_json (exc : String) : Settles (.not_json exc) .null
  | answered (payload : Json) : Settles (.answered payload) (unwrap payload)

theorem unwrap_data {payload success d : Json} (hsuccess : payload.get "success" = .ok success)
    (htruthy : success.truthy = true) (hdata : payload.get "data" = .ok d) :
    unwrap payload = d := by
  obtain ⟨members, rfl, hget⟩ := get_eq_ok hsuccess htruthy
  cases hdata
  simp only [unwrap, hget, htruthy, if_true]

theorem unwrap_failed {members : List (String × Json)} {success : Json}
    (hget : (Dict.ofList members).get? "success" = some success) (hfalse : success.truthy = false) :
    unwrap (.obj members) = .null := by
  simp only [unwrap, hget, hfalse]
  rfl

/-- The last call decides what is returned. -/
structure Ends (o : Outcome Json) : Prop where
  quiet : ∃ v, o.result = .ok v
  data : ∀ tok payload success d, o.events.getLast? = some (.call tok (.answered payload)) →
    payload.get "success" = .ok success → success.truthy = true → payload.get "data" = .ok d →
      o.result = .ok d
  nothing : ∀ e, o.events.getLast? = some e → Failed e → o.result = .ok .null

theorem ends_of_settles {tok v : Json} {reply : Reply} (h : Settles reply v) (s : Controller)
    (front : List Event) : Ends ⟨.ok v, s, front ++ [.call tok reply]⟩ where
  quiet := ⟨v, rfl⟩
  data := by
    intro tok' payload success d hlast hsuccess htruthy hdata
    rw [List.getLast?_concat] at hlast
    cases hlast
    cases h
    exact congrArg Except.ok (unwrap_data hsuccess htruthy hdata)
  nothing := by
    intro e hlast hfailed
    rw [List.getLast?_concat] at hlast
    cases hlast
    cases h with
    | answered payload =>
        cases payload with
        | obj members =>
            obtain ⟨success, hget, hfalse⟩ := hfailed
            exact congrArg Except.ok (unwrap_failed hget hfalse)
        | _ => cases hfailed
    | _ => rfl

theorem settles_or_raises (reply : Reply) : (∃ v, Settles reply v) ∨ Raises reply := by
  cases reply with
  | status code => exact .inl ⟨_, .status code⟩
  | unreachable exc => exact .inl ⟨_, .unreachable exc⟩
  | raised exc => exact .inr ⟨exc, rfl⟩
  | not_json exc => exact .inl ⟨_, .not_json exc⟩
  | answered payload => exact .inl ⟨_, .answered payload⟩

theorem Settles.not_raises {v : Json} {reply : Reply} (h : Settles reply v) : ¬ Raises reply := by
  rintro ⟨exc, rfl⟩
  cases h

/-! ### One attempt -/

variable {n : ℕ} {rest : List Attempt} {tok : Json} {s' : Controller} {events : List Event}

theorem attempts_of_no_token {exc : String} (h : (tokenFor env s a).result = .error exc) :
    (attempts env n (a :: rest) s).result = .error exc := by
  rw [attempts, h]

theorem attempts_of_raised {exc : String} (htoken : tokenFor env s a = ⟨.ok tok, s', events⟩)
    (hcall : a.call = .raised exc) : (attempts env n (a :: rest) s).result = .error exc := by
  rw [attempts, htoken, hcall]

theorem attempts_of_settles {v : Json} (htoken : tokenFor env s a = ⟨.ok tok, s', events⟩)
    (hcall : Settles a.call v) (hlast : a.call = .status 401 → n ≠ 0) :
    attempts env n (a :: rest) s = ⟨.ok v, s', events ++ [.call tok a.call]⟩ := by
  rw [attempts, htoken]
  generalize a.call = reply at hcall hlast
  cases hcall with
  | status code =>
      refine if_neg ?_
      rintro ⟨rfl, hzero⟩
      exact hlast rfl hzero
  | _ => rfl

theorem attempts_of_refused (htoken : tokenFor env s a = ⟨.ok tok, s', events⟩)
    (hcall : a.call = .status 401) :
    attempts env 0 (a :: rest) s =
      { attempts env 1 rest { s' with token := .null } with
        events := events ++ [.call tok a.call] ++
          (attempts env 1 rest { s' with token := .null }).events } := by
  rw [attempts, htoken, hcall]
  rfl

/-- Without a token there is always a login. -/
theorem tokenFor_null (env : Env) (s : Controller) (a : Attempt) :
    tokenFor env { s with token := .null } a = login env { s with token := .null } a := rfl

theorem callsOf_append (events events' : List Event) :
    callsOf (events ++ events') = callsOf events ++ callsOf events' :=
  List.filterMap_append

theorem not_degrades {o : Outcome Json} {exc : String} (h : o.result = .error exc) :
    ¬ Degrades env o := by
  intro hdegrades
  obtain ⟨v, hv⟩ := hdegrades.quiet
  rw [h] at hv
  cases hv

/-- A call that is made once. -/
theorem degrades_of_once {v : Json} {reply : Reply} (hcalls : callsOf events = [])
    (hreply : Settles reply v) : Degrades env ⟨.ok v, s, events ++ [.call tok reply]⟩ := by
  have hone : callsOf (events ++ [.call tok reply]) = [(tok, reply)] := by
    rw [callsOf_append, hcalls]
    rfl
  refine { ends_of_settles hreply s events with calls := ?_, retry := ?_ }
  · rw [hone]
    exact Nat.le_succ 1
  · intro c c' htwo
    rw [hone] at htwo
    cases htwo

/-- A call that is made again after a login. -/
theorem degrades_of_twice {v tok' data : Json} {exp : PyFloat} {reply : Reply}
    (hcalls : callsOf events = []) (hread : readToken env data = .ok (tok', exp))
    (hreply : Settles reply v) :
    Degrades env ⟨.ok v, s, events ++ [.call tok (.status 401)] ++
      ([.login (.answered data)] ++ [.call tok' reply])⟩ := by
  have htwo : callsOf (events ++ [.call tok (.status 401)] ++
      ([.login (.answered data)] ++ [.call tok' reply])) = [(tok, .status 401), (tok', reply)] := by
    rw [callsOf_append, callsOf_append, hcalls]
    rfl
  have hends := @ends_of_settles tok' v reply hreply s
    (events ++ [.call tok (.status 401)] ++ [.login (.answered data)])
  rw [List.append_assoc] at hends
  refine { hends with calls := ?_, retry := ?_ }
  · rw [htwo]
    exact Nat.le_refl 2
  · intro c c' heq
    rw [htwo] at heq
    cases heq
    exact ⟨rfl, _, data, exp, rfl, hread⟩

/-! ## Calls degrade when the logins do not fail -/

/-- Whatever token is cached and whatever the router answers, a call degrades exactly when each
login that it needs comes to a token, and no call ends in an exception other than those of the
transport. -/
theorem apiCall_degrades_iff (env : Env) (s : Controller) (first second : Attempt) :
    Degrades env (apiCall env s first second) ↔ Smooth env s first second := by
  rw [apiCall]
  rcases tokenFor_cases env s first with
    ⟨hlogin, tok, s', events, htoken, hcalls⟩ | ⟨⟨hstale, hout⟩, exc, hexc⟩
  · by_cases hrefused : first.call = .status 401
    · have hcall : ¬ Raises first.call := by
        rw [hrefused]
        exact (Settles.status 401).not_raises
      rw [attempts_of_refused htoken hrefused]
      rcases login_cases env { s' with token := .null } second with
        ⟨hin, data, tok', exp, hread, hsecond⟩ | ⟨hout, exc, hexc⟩
      · rw [← tokenFor_null] at hsecond
        rcases settles_or_raises second.call with ⟨v, hsettles⟩ | ⟨exc, hraised⟩
        · refine iff_of_true ?_ ⟨hlogin, hcall, fun _ ↦ ⟨hin, hsettles.not_raises⟩⟩
          rw [attempts_of_settles hsecond hsettles (fun _ ↦ Nat.one_ne_zero), hrefused]
          exact degrades_of_twice hcalls hread hsettles
        · refine iff_of_false (not_degrades (attempts_of_raised hsecond hraised)) fun h ↦ ?_
          exact (h.again hrefused).2 ⟨exc, hraised⟩
      · refine iff_of_false (not_degrades (attempts_of_no_token hexc)) fun h ↦ ?_
        exact hout (h.again hrefused).1
    · have hfirst : first.call = .status 401 → (0 : ℕ) ≠ 0 := fun h ↦ absurd h hrefused
      rcases settles_or_raises first.call with ⟨v, hsettles⟩ | ⟨exc, hraised⟩
      · refine iff_of_true ?_ ⟨hlogin, hsettles.not_raises, fun h ↦ absurd h hrefused⟩
        rw [attempts_of_settles htoken hsettles hfirst]
        exact degrades_of_once hcalls hsettles
      · refine iff_of_false (not_degrades (attempts_of_raised htoken hraised)) fun h ↦ ?_
        exact h.call ⟨exc, hraised⟩
  · exact iff_of_false (not_degrades (attempts_of_no_token hexc)) fun h ↦ hout (h.login hstale)

/-- With the router down and no token yet, the login raises. -/
theorem login_refused_raises :
    ¬ Degrades ⟨"secret".toList, fun _ ↦ ""⟩
      (apiCall ⟨"secret".toList, fun _ ↦ ""⟩ Controller.init
        ⟨0, .unreachable "URLError: [Errno 111] Connection refused", 0, .answered .null⟩
        ⟨0, .answered .null, 0, .answered .null⟩) :=
  not_degrades rfl

end SensorFusion.Ui.Router
