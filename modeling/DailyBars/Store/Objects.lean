import DailyBars.Http.Transport
import DailyBars.Store.Storage

/-! # Objects at an address

A storage whose texts are objects under an address. Nothing there means absent; there is no
listing, and a text that is of no use stays until the next one takes its place.
-/

namespace DailyBars.Storage

/-- How long to wait for an object. -/
def objectTimeout : Duration := .ofSeconds 30

/-- An address without the slashes at its end. -/
def withoutSlashes (address : String) : String :=
  String.ofList (address.toList.reverse.dropWhile (· == '/')).reverse

/-- What a reply to a request for an object says. -/
def ofObject (name : String) : Except Http.Loss Http.Reply → Except StorageFault (Option String)
  | .error _ => .error (.fetch name)
  | .ok reply =>
    if reply.status.isNotFound then .ok none
    else if reply.status.isSuccess then
      match reply.body with
      | some body => .ok (some body)
      | none => .error (.fetchBody name)
    else .error (.fetchStatus name reply.status.text)

/-- What a reply to a new object says. -/
def ofUpload (name : String) : Except Http.Loss Http.Reply → Except StorageFault Unit
  | .error _ => .error (.upload name)
  | .ok reply =>
    if reply.status.isSuccess then .ok () else .error (.uploadStatus name reply.status.text)

/-- The objects under an address. -/
def objects {ω : Type} (send : Http.Transport ω) (address : String) : Storage ω :=
  let base := withoutSlashes address
  let place := fun name => base ++ "/" ++ name
  { read := fun name world =>
      let (reply, world) := send { address := place name, timeout := objectTimeout } world
      (ofObject name reply, world)
    write := fun name text world =>
      let (reply, world) :=
        send { method := .put, address := place name, body := text, timeout := objectTimeout } world
      (ofUpload name reply, world)
    list := fun world => (.error (.listing base), world)
    quarantine := fun _ world => (.ok (), world)
    location := base }

end DailyBars.Storage
