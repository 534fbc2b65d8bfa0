import WatsonIotp.Client.Properties

/-!
# Options of a connection

`connect()` and `connect(cb)` build the options of a connection each for itself, from the
same properties. Only `connect()` knows of SSL and of the organization "quickstart".

An empty user name or password is not sent: the options hand a null pointer on for it. The
SSL options are null unless they are set, and then they may have empty fields.
-/

/-- `mqtt::ssl_options`. -/
structure SslOptions where
  trustStore : StdString := []
  keyStore : StdString := []
  privateKey : StdString := []
  privateKeyPassword : StdString := []
  deriving DecidableEq

/-- `mqtt::connect_options`, with their initial values. -/
structure ConnectOptions where
  cleanSession : Bool := true
  keepAliveInterval : Int := 60
  userName : StdString := []
  password : StdString := []
  ssl : Option SslOptions := none
  deriving DecidableEq

namespace Properties

def token : StdString := "token".toList

/-- The SSL options of `connect()`. -/
def sslOptions (p : Properties) : SslOptions :=
  let sslopts : SslOptions := {}
  let sslopts :=
    if p.trustStore ≠ [] then { sslopts with trustStore := p.trustStore } else sslopts
  if p.useCerts then
    let sslopts := { sslopts with keyStore := p.keyStore, privateKey := p.privateKey }
    if p.keyPassPhrase ≠ [] then { sslopts with privateKeyPassword := p.keyPassPhrase } else sslopts
  else sslopts

/-- The options of `connect()`. -/
def connectOptions (p : Properties) (keepAliveInterval : Int) : ConnectOptions :=
  let options : ConnectOptions := { cleanSession := true, keepAliveInterval }
  if p.orgId ≠ quickstart then
    { options with
      userName := if p.authMethod ≠ token then p.authMethod else "use-token-auth".toList
      password := p.authToken
      ssl := some p.sslOptions }
  else options

/-- The options of `connect(cb)`. -/
def listenerOptions (p : Properties) (keepAliveInterval : Int) : ConnectOptions :=
  let options : ConnectOptions := {}
  let options :=
    if p.authMethod ≠ token then options else { options with userName := "use-token-auth".toList }
  { options with cleanSession := true, keepAliveInterval, password := p.authToken }

theorem connectOptions_of_quickstart {p : Properties} (h : p.orgId = quickstart)
    (keepAliveInterval : Int) : p.connectOptions keepAliveInterval = { keepAliveInterval } := by
  rw [connectOptions, if_neg (not_not.mpr h)]

/-- The two calls ask for the same connection only where neither has anything to say: the
organization is "quickstart", there is no token and the method is not "token". -/
theorem connectOptions_eq_iff (p : Properties) (keepAliveInterval : Int) :
    p.connectOptions keepAliveInterval = p.listenerOptions keepAliveInterval ↔
      p.orgId = quickstart ∧ p.authMethod ≠ token ∧ p.authToken = [] := by
  have hnone : (p.listenerOptions keepAliveInterval).ssl = none := by
    rw [listenerOptions]
    split <;> rfl
  by_cases horg : p.orgId = quickstart
  · rw [connectOptions_of_quickstart horg, listenerOptions, and_iff_right horg]
    by_cases hmethod : p.authMethod = token
    · rw [if_neg (not_not.mpr hmethod)]
      refine iff_of_false (fun h => ?_) fun h => h.1 hmethod
      cases congrArg ConnectOptions.userName h
    · rw [if_pos hmethod, and_iff_right hmethod]
      simp [eq_comm]
  · refine iff_of_false (fun h => ?_) fun h => horg h.1
    have hssl := congrArg ConnectOptions.ssl h
    rw [hnone, connectOptions, if_pos horg] at hssl
    cases hssl

/-- With a trust store, only `connect()` passes it on. -/
theorem connectOptions_eq_fails : ¬ ∀ (p : Properties) (keepAliveInterval : Int),
    p.connectOptions keepAliveInterval = p.listenerOptions keepAliveInterval := by
  intro h
  have hssl := congrArg ConnectOptions.ssl (h { initial with
    orgId := "testorg".toList
    authMethod := token
    authToken := "password".toList
    trustStore := "IoTFoundation.pem".toList } 60)
  cases hssl

end Properties
