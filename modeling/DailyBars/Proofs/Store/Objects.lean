import DailyBars.Proofs.Store.View
import DailyBars.Store.Objects

/-! # Objects as a storage

A server that gives back what it was given makes a storage of the objects under an address. No text
is ever moved out of the way there.
-/

namespace DailyBars.Storage

/-- The server behind a transport keeps texts under an address. As long as it is up it gives them
back, and a new text is taken, or nothing changes. -/
structure ObjectServer {ω : Type} (send : Http.Transport ω) (address : String) where
  texts : ω → Texts
  Up : ω → Prop
  get : ∀ (name : String) {world : ω}, Up world → ∃ reply world',
    send { address := withoutSlashes address ++ "/" ++ name, timeout := objectTimeout } world
        = (reply, world')
      ∧ ofObject name reply = .ok (texts world name) ∧ Up world' ∧ texts world' = texts world
  put : ∀ (name text : String) {world : ω}, Up world → ∃ reply world',
    send { method := .put, address := withoutSlashes address ++ "/" ++ name, body := text,
           timeout := objectTimeout } world = (reply, world')
      ∧ Up world'
      ∧ (ofUpload name reply = .ok () ∧ texts world' = (texts world).put name text
        ∨ (∃ fault, ofUpload name reply = .error fault) ∧ texts world' = texts world)

/-- The texts of a server. -/
def objectsView {ω : Type} {send : Http.Transport ω} {address : String}
    (server : ObjectServer send address) : (objects send address).View where
  texts := server.texts
  Works := server.Up
  keeps := true
  read := by
    intro name _ world hup
    obtain ⟨reply, world', hsend, hreply, hup', htexts⟩ := server.get name hup
    refine ⟨world', ?_, hup', htexts⟩
    unfold objects
    simp only [hsend, hreply]
  write := by
    intro name _ text world hup
    obtain ⟨reply, world', hsend, hup', hreply⟩ := server.put name text hup
    refine ⟨ofUpload name reply, world', ?_, hup', hreply⟩
    unfold objects
    simp only [hsend]
  quarantine := by
    intro name _ world hup
    exact ⟨.ok (), world, rfl, hup, Or.inl rfl⟩

/-- A transport to a server whose objects are the texts by address. -/
def hosting : Http.Transport Texts := fun request world =>
  match request.method with
  | .get =>
    match world request.address with
    | some text => (.ok { status := ⟨200⟩, body := some text }, world)
    | none => (.ok { status := ⟨404⟩ }, world)
  | .put => (.ok { status := ⟨201⟩ }, world.put request.address request.body)

/-- The server keeps the texts under every address. -/
def hostingServer (address : String) : ObjectServer hosting address where
  texts world name := world (withoutSlashes address ++ "/" ++ name)
  Up _ := True
  get := by
    intro name world _
    cases htext : world (withoutSlashes address ++ "/" ++ name) with
    | none =>
      refine ⟨.ok { status := ⟨404⟩ }, world, ?_, rfl, trivial, rfl⟩
      simp [hosting, htext]
    | some text =>
      refine ⟨.ok { status := ⟨200⟩, body := some text }, world, ?_, rfl, trivial, rfl⟩
      simp [hosting, htext]
  put := by
    intro name text world _
    refine ⟨_, _, rfl, trivial, Or.inl ⟨rfl, ?_⟩⟩
    funext n
    simp only [Texts.put, String.append_right_inj]

end DailyBars.Storage
