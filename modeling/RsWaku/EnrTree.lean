import RsWaku.BaseN
import RsWaku.Bytes
import RsWaku.Control
import RsWaku.Text
import Mathlib.Data.Finset.Insert

/-! The resolver of signed node lists in DNS: the URL, the root record with its signature, and
the walk over the records of the tree. -/
namespace RsWaku
open Bytes Control

inductive DnsError where
  | url (text : String)
  | root (text : String)
  | signature
  | resolve (text : String)
deriving DecidableEq

/-- `TxtResolver::txt`: the TXT records of a name. A walk asks for no name twice, so that its
answers are a function of the name. -/
abbrev TxtResolver := String → Except DnsError (List String)

/-- What the resolver calls in `sha3`, `k256` and `enr`, and the upper case of Unicode. -/
structure DnsCrates where
  Enr : Type
  VerifyingKey : Type
  Signature : Type
  keccak256 : List UInt8 → Vector UInt8 32
  toUppercase : String → String
  fromSec1Bytes : List UInt8 → Option VerifyingKey
  fromSlice : List UInt8 → Option Signature
  verifyPrehash : VerifyingKey → Vector UInt8 32 → Signature → Bool
  enrFromStr : String → Option Enr

def maxRecords : Nat := 5000

structure EnrTreeLink where
  pubkey : List UInt8
  domain : String
deriving DecidableEq

structure RootRecord where
  eRoot : String
deriving DecidableEq

variable (crates : DnsCrates)

def parseEnrtree (url : String) : Except DnsError EnrTreeLink := do
  let rest ← okOr (Text.stripPrefix url "enrtree://") (.url url)
  let (b32key, domain) ← okOr (Text.splitOnce rest "@") (.url url)
  let pubkey ← (BaseN.base32.decode (asBytes (crates.toUppercase b32key))).mapError fun e =>
    .url ("bad base32 pubkey: " ++ e.text)
  return { pubkey, domain }

def subdomainHash (content : String) : String :=
  BaseN.base32.encode ((crates.keccak256 (asBytes content)).toList.take 16)

def verifySecp256k1 (msg sigRs pubkey : List UInt8) : Except DnsError Unit := do
  let prehash := crates.keccak256 msg
  let vk ← okOr (crates.fromSec1Bytes pubkey) .signature
  let sig ← okOr (crates.fromSlice sigRs) .signature
  if crates.verifyPrehash vk prehash sig then .ok () else .error .signature

def eHash (signed : String) : Option String :=
  (Text.splitWhitespace signed).findSome? fun t => Text.stripPrefix t "e="

def verifyRoot (record : String) (pubkey : List UInt8) : Except DnsError RootRecord := do
  let (signed, rest) ← okOr (Text.splitOnce record " sig=") (.root "missing sig")
  let sig ← (BaseN.base64Url.decode (asBytes (Text.trim rest))).mapError fun e =>
    .root ("bad sig base64: " ++ e.text)
  if sig.length < 64 then .error (.root "sig too short")
  else
    verifySecp256k1 crates (asBytes signed) (sig.take 64) pubkey
    let eRoot ← okOr (eHash signed) (.root "missing e=")
    return { eRoot }

/-- The variables of the walk; the stack has its top first. -/
structure WalkState where
  enrs : List crates.Enr := []
  visited : Finset String := ∅
  stack : List String
  budget : Nat := maxRecords

def childHashes (branch : String) : List String :=
  ((Text.split branch ',').map Text.trim).filter (· ≠ "")

variable {crates} (resolver : TxtResolver) (domain : String)

def WalkState.visit (hash : String) (s : WalkState crates) : WalkState crates :=
  match resolver (hash ++ "." ++ domain) with
  | .error _ => s
  | .ok [] => s
  | .ok (content :: _) =>
    if subdomainHash crates content ≠ hash then s
    else
      match Text.stripPrefix content "enrtree-branch:" with
      | some branch => { s with stack := (childHashes branch).reverse ++ s.stack }
      | none =>
        if Text.startsWith content "enr:" then
          match crates.enrFromStr content with
          | some enr => { s with enrs := s.enrs ++ [enr] }
          | none => s
        else s

def WalkState.turn (s : WalkState crates) : Option (WalkState crates) :=
  match s.stack with
  | [] => none
  | hash :: stack =>
    if hash = "" ∨ hash ∈ s.visited then some { s with stack }
    else if s.budget = 0 then none
    else
      some (WalkState.visit resolver domain hash
        { s with stack, visited := insert hash s.visited, budget := s.budget - 1 })

theorem WalkState.visit_budget (hash : String) (s : WalkState crates) :
    (s.visit resolver domain hash).budget = s.budget := by
  unfold WalkState.visit
  repeat' split
  all_goals rfl

def treeWalk : Loop (WalkState crates) where
  turn := WalkState.turn resolver domain
  size s := (s.budget, s.stack.length)
  descends {s t} h := by
    unfold WalkState.turn at h
    split at h
    case h_1 => cases h
    case h_2 hash stack hstack =>
      split at h
      case isTrue =>
        cases h
        rw [hstack]
        exact Prod.Lex.right _ (Nat.lt_succ_self _)
      case isFalse =>
        split at h
        case isTrue => cases h
        case isFalse hbudget =>
          cases h
          rw [WalkState.visit_budget]
          exact Prod.Lex.left _ _ (Nat.sub_one_lt hbudget)

variable (crates) in
def resolve (url : String) (resolver : TxtResolver) : Except DnsError (List crates.Enr) := do
  let link ← parseEnrtree crates url
  let rootRecords ← resolver link.domain
  let rootTxt ← okOr (rootRecords.find? fun r => Text.startsWith r "enrtree-root:v1")
    (.root "no enrtree-root record")
  let root ← verifyRoot crates rootTxt link.pubkey
  return ((treeWalk resolver link.domain).run { stack := [root.eRoot] }).enrs

end RsWaku
