import NodePlane.Library.Table
import NodePlane.Agent.Intent

/-! The policy snapshots an agent enforces on its own, connection limits and speed
limits, and what it checks of a request before it stores one. -/
namespace NodePlane
open Library
namespace Snapshots

/-- The snapshot in force and its revision, as the agent journals them. -/
structure Snapshot (β : Type) where
  revision : ℕ
  clients : β
  deriving DecidableEq

/-- Stores a newer snapshot and answers the revision now in force; `saved` tells
whether the journal could be written. -/
def apply {α β : Type} (read : List α → Except String β) (revision : ℕ) (clients : List α)
    (saved : Bool) (current : Snapshot β) : Snapshot β × Except String ℕ :=
  match read clients with
  | .error err => (current, .error err)
  | .ok held =>
    if revision ≤ current.revision then (current, .ok current.revision)
    else if !saved then (current, .error "policy could not be stored")
    else (⟨revision, held⟩, .ok revision)

/-- One name per Xray client. -/
def validEmail (value : String) : Bool :=
  matchesName value 64 fun c => c.isAlphanum || c ∈ ['_', '-']

namespace Admission

def maxWindowSeconds : ℕ := 3600

def maxCooldownSeconds : ℕ := 86400

inductive Mode where
  | observe | enforce
  deriving DecidableEq

/-- The limit of one client, as the controller resolves it. -/
structure Client where
  email : String
  mode : String
  maxSources : ℕ
  windowSeconds : ℕ
  cooldownSeconds : ℕ
  deriving DecidableEq

structure Policy where
  maxSources : ℕ
  mode : Mode
  windowSeconds : ℕ
  cooldownSeconds : ℕ
  deriving DecidableEq

def parseMode (mode : String) : Except String Mode :=
  if mode = "observe" then .ok .observe
  else if mode = "enforce" then .ok .enforce
  else .error "unknown admission mode"

/-- The clients of a request after those of `known`. -/
def readFrom (known : Table String Policy) : List Client → Except String (Table String Policy)
  | [] => .ok known
  | client :: rest =>
    match parseMode client.mode with
    | .error err => .error err
    | .ok mode =>
      if !validEmail client.email || client.maxSources = 0 ||
          !(1 ≤ client.windowSeconds && client.windowSeconds ≤ maxWindowSeconds) ||
          maxCooldownSeconds < client.cooldownSeconds then .error "invalid admission policy"
      else if (known.lookup client.email).isSome then .error "duplicate admission client"
      else
        readFrom (known.put client.email
          ⟨client.maxSources, mode, client.windowSeconds, client.cooldownSeconds⟩) rest

def read (clients : List Client) : Except String (Table String Policy) := readFrom ∅ clients

end Admission

namespace Shaping

/-- 100 Gbit/s: above any real uplink. -/
def maxKbit : ℕ := 100000000

/-- Limits in kbit/s; 0 leaves that direction unlimited. -/
structure Client where
  protocol : String
  name : String
  upKbit : ℕ
  downKbit : ℕ
  deriving DecidableEq

structure Rate where
  upKbit : ℕ
  downKbit : ℕ
  deriving DecidableEq

def validPeer (name : String) : Bool :=
  matchesName name 128 fun c => c.isAlphanum || c ∈ ['.', '_', '-']

/-- The name is one of its protocol's clients. -/
def checkName (client : Client) : Except String Bool :=
  if client.protocol = "xray" then .ok (validEmail client.name)
  else if client.protocol = "awg" then .ok (validPeer client.name)
  else .error "unknown rate protocol"

/-- The limits of a protocol's clients, by name. -/
abbrev Rates := Table String (Table String Rate)

def readFrom (known : Rates) : List Client → Except String Rates
  | [] => .ok known
  | client :: rest =>
    match checkName client with
    | .error err => .error err
    | .ok validName =>
      if !validName || maxKbit < client.upKbit || maxKbit < client.downKbit ||
          (client.upKbit = 0 && client.downKbit = 0) then .error "invalid rate policy"
      else
        let rates := (known.lookup client.protocol).getD ∅
        if (rates.lookup client.name).isSome then .error "duplicate rate client"
        else
          readFrom (known.put client.protocol
            (rates.put client.name ⟨client.upKbit, client.downKbit⟩)) rest

def read (clients : List Client) : Except String Rates := readFrom ∅ clients

end Shaping

/-- A request is refused, is not newer than the snapshot in force, or is stored. -/
theorem apply_cases {α β : Type} (read : List α → Except String β) (revision : ℕ)
    (clients : List α) (saved : Bool) (current : Snapshot β) :
    (∃ err, apply read revision clients saved current = (current, .error err)) ∨
      (revision ≤ current.revision ∧
        apply read revision clients saved current = (current, .ok current.revision)) ∨
      ∃ held, read clients = .ok held ∧ current.revision < revision ∧
        apply read revision clients saved current = (⟨revision, held⟩, .ok revision) := by
  unfold apply
  cases checked : read clients with
  | error err => exact .inl ⟨err, rfl⟩
  | ok held =>
    dsimp only
    split_ifs with old unsaved
    · exact .inr (.inl ⟨old, rfl⟩)
    · exact .inl ⟨_, rfl⟩
    · exact .inr (.inr ⟨held, rfl, by omega, rfl⟩)

end Snapshots
end NodePlane
