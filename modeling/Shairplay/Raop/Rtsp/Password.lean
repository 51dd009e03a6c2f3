import Shairplay.Proto.Digest.Rendering
import Shairplay.Raop.Rtsp

/-!
# Mediation by the password

Behind a password no handler runs and nothing changes unless the request carries a digest
for the connection's nonce; clients that build such a header in any layout get through.
-/

namespace Shairplay.Raop

open Lib Lib.Str Proto Proto.Digest

/-- The password guards every method but OPTIONS, and a client that knows it is let in. -/
theorem dispatch_password_mediation (env : Platform) (config : RaopConfig) (w : World)
    (request : Request) (password : config.password ≠ "")
    (method : request.method.getD "" ≠ "OPTIONS") :
    (¬ HasAuthorization env config w.conn request →
      handledBy env config w.conn request = none ∧
        dispatch env config w request = (w, unauthorized w.conn request)) ∧
    ∀ (values : Field → List Char) (parts : List (List Char)) (front scheme : List Char)
      (sep : Char), Built values parts → (∀ f, '"' ∉ values f) →
      values .realm = digestRealm.toList → values .nonce = w.conn.nonce.toList →
      values .uri = (request.url.getD "").toList →
      values .response = getResponse env.md5 (values .username) digestRealm.toList
        config.password.toList w.conn.nonce.toList (request.method.getD "").toList
        (request.url.getD "").toList →
      Blank front → (∀ c ∈ scheme, isWhitespace c = false) →
      eqIgnoreAsciiCase scheme "Digest".toList = true → isWhitespace sep = true →
      request.header "Authorization" =
        some (String.ofList (front ++ (scheme ++ sep :: joinParts parts))) →
      dispatch env config w request = route env config w request := by
  constructor
  · intro missing
    have rejected : authenticated env config w.conn request = false := by
      rw [Bool.eq_false_iff]
      intro passed
      exact missing ((authenticated_iff password method).mp passed)
    constructor
    · simp [handledBy, rejected]
    · simp [dispatch, rejected]
  · intro values parts front scheme sep built noQuote realm nonce uri response blank solid digest
      white header
    have authorizes : HasAuthorization env config w.conn request := by
      refine ⟨_, header, ?_⟩
      rw [String.toList_ofList]
      exact built.authorizes noQuote realm nonce uri response blank solid digest white
    have passed : authenticated env config w.conn request = true :=
      (authenticated_iff password method).mpr authorizes
    simp [dispatch, passed]

/-- The MD5 digests of the texts that the request below needs. -/
def guestMd5 : Md5 := fun text =>
  if text = Utf8.encode "guest:airplay:secret" then
    [76, 193, 242, 115, 4, 191, 65, 39, 228, 143, 244, 114, 52, 199, 152, 210]
  else if text = Utf8.encode "SETUP:rtsp://10.0.0.2/1" then
    [149, 4, 215, 13, 242, 223, 21, 156, 123, 105, 180, 198, 54, 75, 40, 142]
  else if text = Utf8.encode
      "4cc1f27304bf4127e48ff47234c798d2:00ff:9504d70df2df159c7b69b4c6364b288e" then
    [152, 44, 92, 200, 176, 130, 235, 129, 247, 126, 157, 151, 198, 159, 143, 84]
  else []

def guestPlatform : Platform := { inertPlatform with md5 := guestMd5 }

def guestConfig : RaopConfig := { plainConfig with password := "secret" }

def guestWorld : World where
  conn := { localAddr := [10, 0, 0, 2], nonce := "00ff" }
  shared := {}
  ambient := {}

def guestRequest (headers : List (String × String)) : Request :=
  { method := some "SETUP", url := some "rtsp://10.0.0.2/1", headers }

def guestValues : Field → List Char
  | .username => "guest".toList
  | .realm => "airplay".toList
  | .nonce => "00ff".toList
  | .uri => "rtsp://10.0.0.2/1".toList
  | .response => "982c5cc8b082eb81f77e9d97c69f8f54".toList

/-- How the client writes each value. -/
def guestOwn : Field → List Char
  | .username => " username = \"guest\"".toList
  | .realm => " realm=\"airplay\"".toList
  | .nonce => " nonce=\"00ff\"".toList
  | .uri => "uri=\"rtsp://10.0.0.2/1\"".toList
  | .response => " response=\"982c5cc8b082eb81f77e9d97c69f8f54\"".toList

/-- The values in another order, with a parameter of the client's own among them. -/
def guestParts : List (List Char) :=
  [guestOwn .uri, guestOwn .username, " opaque=\"a,b=c\"".toList, guestOwn .realm, guestOwn .nonce,
    guestOwn .response]

theorem blank_space : Blank [' '] := by
  intro c mem
  rw [List.mem_singleton.mp mem]
  decide

theorem blank_nil : Blank [] := fun _ mem => absurd mem (by simp)

theorem guestOwn_quoted (f : Field) : Quoted f.key (guestOwn f) (guestValues f) := by
  cases f with
  | username =>
    exact ⟨[' '], "username".toList, [' '], [' '], [], blank_space, blank_space, blank_space,
      blank_nil, by decide +kernel, by decide +kernel⟩
  | realm =>
    exact ⟨[' '], "realm".toList, [], [], [], blank_space, blank_nil, blank_nil, blank_nil,
      by decide +kernel, by decide +kernel⟩
  | nonce =>
    exact ⟨[' '], "nonce".toList, [], [], [], blank_space, blank_nil, blank_nil, blank_nil,
      by decide +kernel, by decide +kernel⟩
  | uri =>
    exact ⟨[], "uri".toList, [], [], [], blank_nil, blank_nil, blank_nil, blank_nil,
      by decide +kernel, by decide +kernel⟩
  | response =>
    exact ⟨[' '], "response".toList, [], [], [], blank_space, blank_nil, blank_nil, blank_nil,
      by decide +kernel, by decide +kernel⟩

theorem guest_extra : Extra " opaque=\"a,b=c\"".toList where
  passes := ⟨by simp [CommaFree], by decide +kernel⟩
  named := by
    intro lhs rhs whole clear f
    have cut : splitOnce (· == '=') " opaque=\"a,b=c\"".toList = some (lhs, rhs) :=
      splitOnce_eq_some.mpr ⟨'=', rfl, by
        intro c mem
        simpa using fun same : c = '=' => clear (same ▸ mem), whole⟩
    have left : lhs = " opaque".toList := by
      have known : splitOnce (· == '=') " opaque=\"a,b=c\"".toList =
          some (" opaque".toList, "\"a,b=c\"".toList) := by decide +kernel
      exact (Prod.mk.inj (Option.some.inj (cut.symm.trans known))).1
    rw [left]
    cases f <;> decide +kernel

theorem guest_built : Built guestValues guestParts := by
  refine ⟨guestOwn, [" opaque=\"a,b=c\"".toList], ?_, guestOwn_quoted, ?_⟩
  · decide +kernel
  · intro part mem
    rw [List.mem_singleton.mp mem]
    exact guest_extra

theorem guest_scheme_solid : ∀ c ∈ "dIGEST".toList, isWhitespace c = false := by
  -- through `List.all`: deciding the statement itself may run over all characters
  have solid : ("dIGEST".toList.all fun c => !isWhitespace c) = true := by decide +kernel
  intro c mem
  simpa using List.all_eq_true.mp solid c mem

/-- Without a header the guest is turned away; with the right one the request is routed. -/
theorem dispatch_password_mediation_guest :
    dispatch guestPlatform guestConfig guestWorld (guestRequest []) =
        (guestWorld, unauthorized guestWorld.conn (guestRequest [])) ∧
      dispatch guestPlatform guestConfig guestWorld (guestRequest
          [("authorization", String.ofList ("dIGEST".toList ++ ' ' :: joinParts guestParts))]) =
        route guestPlatform guestConfig guestWorld (guestRequest
          [("authorization", String.ofList ("dIGEST".toList ++ ' ' :: joinParts guestParts))]) := by
  constructor
  · refine ((dispatch_password_mediation guestPlatform guestConfig guestWorld (guestRequest [])
      (by decide) (by decide)).1 ?_).2
    rintro ⟨auth, header, _⟩
    exact absurd header (by simp [guestRequest, Request.header])
  · exact (dispatch_password_mediation guestPlatform guestConfig guestWorld _ (by decide)
      (by decide)).2 guestValues guestParts [] "dIGEST".toList ' ' guest_built
      (by intro f; cases f <;> decide +kernel) rfl rfl rfl (by decide +kernel) blank_nil
      guest_scheme_solid (by decide +kernel) (by decide +kernel) (by decide +kernel)

end Shairplay.Raop
