import RsWaku.EnrTreeWalk
import RsWaku.Keccak

/-! What resolving a tree returns: leaves that the signed root vouches for, whatever the resolver
answers, and all of them if the tree is served and within the record cap. -/
namespace RsWaku
open Bytes Control
variable {crates : DnsCrates} {resolver : TxtResolver} {domain hash : String}

/-- A root record was obtained whose text before the first occurrence of sig= is the signed
text, verifies under the key of the link and names the root hash. -/
def SignedRoot (crates : DnsCrates) (resolver : TxtResolver) (link : EnrTreeLink)
    (signed eRoot : String) : Prop :=
  ∃ records rest sig, resolver link.domain = .ok records ∧ signed ++ " sig=" ++ rest ∈ records ∧
    Text.startsWith (signed ++ " sig=" ++ rest) "enrtree-root:v1" = true ∧
    (∀ before after, signed ++ " sig=" ++ rest = before ++ " sig=" ++ after →
      signed.length ≤ before.length) ∧
    BaseN.base64Url.decode (asBytes (Text.trim rest)) = .ok sig ∧ 64 ≤ sig.length ∧
    verifySecp256k1 crates (asBytes signed) (sig.take 64) link.pubkey = .ok () ∧
    eHash signed = some eRoot

theorem verifyRoot_ok {record : String} {pubkey : List UInt8} {root : RootRecord} :
    verifyRoot crates record pubkey = .ok root ↔ ∃ signed rest sig,
      Text.splitOnce record " sig=" = some (signed, rest) ∧
      BaseN.base64Url.decode (asBytes (Text.trim rest)) = .ok sig ∧ 64 ≤ sig.length ∧
      verifySecp256k1 crates (asBytes signed) (sig.take 64) pubkey = .ok () ∧
      eHash signed = some root.eRoot := by
  simp only [verifyRoot, bind_eq_ok, okOr_eq_ok, mapError_eq_ok]
  constructor
  · intro ⟨⟨signed, rest⟩, hsplit, sig, hsig, h⟩
    split at h
    case isTrue => cases h
    case isFalse hlength =>
      obtain ⟨_, hverify, h⟩ := bind_eq_ok.mp h
      obtain ⟨eRoot, hhash, h⟩ := bind_eq_ok.mp h
      cases h
      exact ⟨signed, rest, sig, hsplit, hsig, Nat.le_of_not_lt hlength, hverify,
        okOr_eq_ok.mp hhash⟩
  · intro ⟨signed, rest, sig, hsplit, hsig, hlength, hverify, hhash⟩
    refine ⟨(signed, rest), hsplit, sig, hsig, ?_⟩
    rw [if_neg (Nat.not_lt_of_le hlength)]
    exact bind_eq_ok.mpr ⟨(), hverify, bind_eq_ok.mpr ⟨_, okOr_eq_ok.mpr hhash, rfl⟩⟩

theorem resolve_ok {url : String} {enrs : List crates.Enr} :
    resolve crates url resolver = .ok enrs ↔ ∃ link records record root,
      parseEnrtree crates url = .ok link ∧ resolver link.domain = .ok records ∧
      records.find? (fun r => Text.startsWith r "enrtree-root:v1") = some record ∧
      verifyRoot crates record link.pubkey = .ok root ∧
      enrs = ((treeWalk resolver link.domain).run { stack := [root.eRoot] }).enrs := by
  simp only [resolve, bind_eq_ok, okOr_eq_ok]
  constructor
  · intro ⟨link, hlink, records, hrecords, record, hrecord, root, hroot, henrs⟩
    cases henrs
    exact ⟨link, records, record, root, hlink, hrecords, hrecord, hroot, rfl⟩
  · intro ⟨link, records, record, root, hlink, hrecords, hrecord, hroot, henrs⟩
    subst henrs
    exact ⟨link, hlink, records, hrecords, record, hrecord, root, hroot, rfl⟩

def CompleteTree (crates : DnsCrates) (resolver : TxtResolver) (domain eRoot : String) : Prop :=
  ∀ hash, InTree crates resolver domain eRoot hash →
    ∃ content, Authentic crates resolver domain hash content

/-- No record of one resolver has the hash of another record of the other. -/
def NoCollisions (crates : DnsCrates) (resolver resolver' : TxtResolver) : Prop :=
  ∀ name name' content content' rest rest', resolver name = .ok (content :: rest) →
    resolver' name' = .ok (content' :: rest') →
    subdomainHash crates content = subdomainHash crates content' → content = content'

theorem NoCollisions.eq {resolver' : TxtResolver} {content content' : String}
    (h : NoCollisions crates resolver resolver')
    (ha : Authentic crates resolver domain hash content)
    (ha' : Authentic crates resolver' domain hash content') : content = content' := by
  obtain ⟨⟨rest, hrest⟩, hhash⟩ := ha
  obtain ⟨⟨rest', hrest'⟩, hhash'⟩ := ha'
  exact h _ _ _ _ _ _ hrest hrest' (hhash.trans hhash'.symm)

theorem InTree.honest {honest : TxtResolver} {eRoot : String}
    (h : InTree crates resolver domain eRoot hash)
    (hcomplete : CompleteTree crates honest domain eRoot)
    (hcollisions : NoCollisions crates resolver honest) :
    InTree crates honest domain eRoot hash := by
  induction h with
  | refl => exact Relation.ReflTransGen.refl
  | tail _ hlists ih =>
    obtain ⟨branch, hbranch, hchild⟩ := hlists
    obtain ⟨content, hcontent⟩ := hcomplete _ ih
    rw [← hcollisions.eq hbranch hcontent] at hcontent
    exact ih.tail ⟨branch, hcontent, hchild⟩

theorem InTree.mem_of_closed {eRoot : String} {hashes : List String}
    (h : InTree crates resolver domain eRoot hash) (hroot : eRoot ∈ hashes)
    (hclosed : ∀ a ∈ hashes, ∀ b ∈ childrenOf crates resolver domain a, b ∈ hashes) :
    hash ∈ hashes := by
  induction h with
  | refl => exact hroot
  | tail _ hlists ih => exact hclosed _ ih _ (mem_childrenOf.mpr hlists)

/- The sample tree has a branch that lists another branch and a leaf, which the other branch
lists again. The root is signed with the secret key of 32 bytes 7, and the leaf is an ENR of the
secret key of 32 bytes 9. -/
def sampleKey : String := "AKMJYC3WZNLDS4P5ZG7PGHWANQ2WB4ZETVXOTZOYHRLWEVMW4BPW6"

def sampleUrl : String := "enrtree://" ++ (sampleKey ++ "@nodes.test")

def sampleLink : EnrTreeLink where
  pubkey := [2, 152, 156, 11, 118, 203, 86, 57, 113, 253, 201, 190, 243, 30, 192, 108, 53, 96, 243,
    36, 157, 110, 233, 229, 216, 60, 87, 98, 85, 150, 224, 95, 111]
  domain := "nodes.test"

def sampleSigned : String :=
  "enrtree-root:v1 e=CCK5O6DIW7ABUSATZQS4G5Y7N4 l=CCK5O6DIW7ABUSATZQS4G5Y7N4 seq=1"

def sampleSig : String :=
  "MSKcwPeX-WomYQsrDDQihZZ6nGmY1BjCi3ZJcPfiDF5xa0OQdOUktKmPwcBHGJ-vF_6i9LpCmXxwFiptHfNZmwA"

def sampleRoot : String := sampleSigned ++ (" sig=" ++ sampleSig)

def sampleSignature : List UInt8 :=
  [49, 34, 156, 192, 247, 151, 249, 106, 38, 97, 11, 43, 12, 52, 34, 133, 150, 122, 156, 105, 152,
    212, 24, 194, 139, 118, 73, 112, 247, 226, 12, 94, 113, 107, 67, 144, 116, 229, 36, 180, 169,
    143, 193, 192, 71, 24, 159, 175, 23, 254, 162, 244, 186, 66, 153, 124, 112, 22, 42, 109, 29,
    243, 89, 155]

def sampleEnrText : String :=
  "-HW4QEcbWtOtRn9ZZSCnbqYPu43-bAydDNVqFFp2RhlOTwzwXKDapx7ru91ujNYrvpJylQOygW9kwfQlug" ++
    "d2b6J22twBgmlkgnY0iXNlY3AyNTZrMaECVrMoswyL9YOeJAWHR4eUCL2zYkHcnC58YZ-qErKSCWc"

def sampleEnr : String := "enr:" ++ sampleEnrText

/- Keccak-256 and the upper case of ASCII as they are. Of keys, signatures and ENRs those of the
sample are known; an ENR is kept as its text. -/
def sampleCrates : DnsCrates where
  Enr := String
  VerifyingKey := List UInt8
  Signature := List UInt8
  keccak256 b := ⟨(Keccak.digest b).toArray, Keccak.digest_length b⟩
  toUppercase := String.toUpper
  fromSec1Bytes b := if b = sampleLink.pubkey then some b else none
  fromSlice b := if b = sampleSignature then some b else none
  verifyPrehash _ prehash _ := prehash.toList = Keccak.digest (asBytes sampleSigned)
  enrFromStr s := if s = sampleEnr then some s else none

def sampleRecords : List (String × String) :=
  [("nodes.test", sampleRoot),
    ("CCK5O6DIW7ABUSATZQS4G5Y7N4.nodes.test",
      "enrtree-branch:" ++ "UZ4Q6VY73SFNOKQFTIYY22NMDI,VRBXVXK4CUFR6B6CSKTDUTUSRI"),
    ("UZ4Q6VY73SFNOKQFTIYY22NMDI.nodes.test",
      "enrtree-branch:" ++ "VRBXVXK4CUFR6B6CSKTDUTUSRI"),
    ("VRBXVXK4CUFR6B6CSKTDUTUSRI.nodes.test", sampleEnr)]

def sampleTree : TxtResolver := fun name => .ok (sampleRecords.lookup name).toList

/- The same root and leaf, and another record in place of the second branch. -/
def forgedTree : TxtResolver := fun name =>
  if name = "UZ4Q6VY73SFNOKQFTIYY22NMDI.nodes.test" then .ok ["enrtree-branch:AAAA"]
  else sampleTree name

def sampleHashes : List String :=
  ["CCK5O6DIW7ABUSATZQS4G5Y7N4", "UZ4Q6VY73SFNOKQFTIYY22NMDI", "VRBXVXK4CUFR6B6CSKTDUTUSRI"]

theorem sampleLink_parsed : parseEnrtree sampleCrates sampleUrl = .ok sampleLink := by
  have hsplit : Text.splitOnce (sampleKey ++ "@nodes.test") "@" =
      some (sampleKey, "nodes.test") := by
    have hkey : sampleKey = String.ofList _ := rfl
    rw [Text.splitOnce, String.toList_append, hkey, String.toList_ofList, String.toList_ofList]
    decide +kernel
  have hkey : BaseN.base32.decode (asBytes (sampleCrates.toUppercase sampleKey)) =
      .ok sampleLink.pubkey := by decide +kernel
  simp only [parseEnrtree, bind_eq_ok, okOr_eq_ok, mapError_eq_ok]
  exact ⟨_, Text.stripPrefix_eq_some.mpr rfl, _, hsplit, _, hkey, rfl⟩

theorem sampleRoot_parts :
    Text.splitOnce sampleRoot " sig=" = some (sampleSigned, sampleSig) ∧
    Text.startsWith sampleRoot "enrtree-root:v1" = true := by
  have hroot : sampleRoot = sampleSigned ++ (" sig=" ++ sampleSig) := rfl
  have hsigned : sampleSigned = String.ofList _ := rfl
  have hsig : sampleSig = String.ofList _ := rfl
  rw [Text.splitOnce, Text.startsWith, hroot, String.toList_append, String.toList_append, hsigned,
    hsig]
  repeat rw [String.toList_ofList]
  decide +kernel

theorem sampleSigned_eHash : eHash sampleSigned = some "CCK5O6DIW7ABUSATZQS4G5Y7N4" := by
  have hsigned : sampleSigned = String.ofList _ := rfl
  rw [eHash, Text.splitWhitespace, hsigned, String.toList_ofList]
  decide +kernel

theorem sampleRoot_verified :
    verifyRoot sampleCrates sampleRoot sampleLink.pubkey =
      .ok { eRoot := "CCK5O6DIW7ABUSATZQS4G5Y7N4" } := by
  have htrim : Text.trim sampleSig = sampleSig := by
    have hsig : sampleSig = String.ofList _ := rfl
    rw [Text.trim, hsig, String.toList_ofList]
    decide +kernel
  have hdecode : BaseN.base64Url.decode (asBytes (Text.trim sampleSig)) =
      .ok (sampleSignature ++ [0]) := by
    have hsig : sampleSig = String.ofList _ := rfl
    rw [htrim, hsig, asBytes_ofList]
    decide +kernel
  exact verifyRoot_ok.mpr ⟨_, _, _, sampleRoot_parts.1, hdecode, by decide, by decide +kernel,
    sampleSigned_eHash⟩

theorem sample_hashes :
    subdomainHash sampleCrates sampleRoot = "KWYMWV566AHYMAEALYBA2667EM" ∧
    subdomainHash sampleCrates ("enrtree-branch:" ++
      "UZ4Q6VY73SFNOKQFTIYY22NMDI,VRBXVXK4CUFR6B6CSKTDUTUSRI") = "CCK5O6DIW7ABUSATZQS4G5Y7N4" ∧
    subdomainHash sampleCrates ("enrtree-branch:" ++ "VRBXVXK4CUFR6B6CSKTDUTUSRI") =
      "UZ4Q6VY73SFNOKQFTIYY22NMDI" ∧
    subdomainHash sampleCrates sampleEnr = "VRBXVXK4CUFR6B6CSKTDUTUSRI" ∧
    subdomainHash sampleCrates "enrtree-branch:AAAA" = "FYUIEKCCC2AZHGUWTXG3SZLUYA" := by
  have hroot : sampleRoot = sampleSigned ++ (" sig=" ++ sampleSig) := rfl
  have hsigned : sampleSigned = String.ofList _ := rfl
  have hsig : sampleSig = String.ofList _ := rfl
  have henr : sampleEnr = "enr:" ++ (_ ++ _) := rfl
  rw [hroot, henr]
  simp only [subdomainHash, asBytes_append]
  rw [hsigned, hsig]
  repeat rw [asBytes_ofList]
  decide +kernel

theorem sampleTree_authentic :
    Authentic sampleCrates sampleTree "nodes.test" "CCK5O6DIW7ABUSATZQS4G5Y7N4"
      ("enrtree-branch:" ++ "UZ4Q6VY73SFNOKQFTIYY22NMDI,VRBXVXK4CUFR6B6CSKTDUTUSRI") ∧
    Authentic sampleCrates sampleTree "nodes.test" "UZ4Q6VY73SFNOKQFTIYY22NMDI"
      ("enrtree-branch:" ++ "VRBXVXK4CUFR6B6CSKTDUTUSRI") ∧
    Authentic sampleCrates sampleTree "nodes.test" "VRBXVXK4CUFR6B6CSKTDUTUSRI" sampleEnr := by
  obtain ⟨-, hroot, hbranch, hleaf, -⟩ := sample_hashes
  exact ⟨⟨⟨[], rfl⟩, hroot⟩, ⟨⟨[], rfl⟩, hbranch⟩,
    ⟨⟨[], rfl⟩, hleaf⟩⟩

theorem sample_childHashes :
    childHashes "UZ4Q6VY73SFNOKQFTIYY22NMDI,VRBXVXK4CUFR6B6CSKTDUTUSRI" =
      ["UZ4Q6VY73SFNOKQFTIYY22NMDI", "VRBXVXK4CUFR6B6CSKTDUTUSRI"] ∧
    childHashes "VRBXVXK4CUFR6B6CSKTDUTUSRI" = ["VRBXVXK4CUFR6B6CSKTDUTUSRI"] := by
  decide +kernel

theorem sampleTree_closed : ∀ a ∈ sampleHashes,
    (∃ content, Authentic sampleCrates sampleTree "nodes.test" a content) ∧
    ∀ b ∈ childrenOf sampleCrates sampleTree "nodes.test" a, b ∈ sampleHashes := by
  obtain ⟨hroot, hbranch, hleaf⟩ := sampleTree_authentic
  simp only [sampleHashes, List.forall_mem_cons, List.not_mem_nil, IsEmpty.forall_iff,
    implies_true, and_true, childrenOf_branch hroot, childrenOf_branch hbranch,
    childrenOf_enr hleaf, sample_childHashes]
  exact ⟨⟨⟨_, hroot⟩, by simp⟩, ⟨⟨_, hbranch⟩, by simp⟩, _, hleaf⟩

theorem sampleTree_mem {hash : String}
    (h : InTree sampleCrates sampleTree "nodes.test" "CCK5O6DIW7ABUSATZQS4G5Y7N4" hash) :
    hash ∈ sampleHashes :=
  h.mem_of_closed (by simp [sampleHashes]) fun a ha => (sampleTree_closed a ha).2

theorem sampleTree_complete :
    CompleteTree sampleCrates sampleTree "nodes.test" "CCK5O6DIW7ABUSATZQS4G5Y7N4" := by
  intro hash h
  exact (sampleTree_closed hash (sampleTree_mem h)).1

def sampleContents : List String := sampleRecords.map Prod.snd ++ ["enrtree-branch:AAAA"]

theorem sampleTree_content {name content : String} {rest : List String}
    (h : sampleTree name = .ok (content :: rest)) : content ∈ sampleContents := by
  unfold sampleTree at h
  cases hlookup : sampleRecords.lookup name with
  | none =>
    rw [hlookup] at h
    cases h
  | some first =>
    rw [hlookup] at h
    cases h
    obtain ⟨before, after, hrecords, -⟩ := List.lookup_eq_some_iff.mp hlookup
    exact List.mem_append_left _ (List.mem_map.mpr ⟨(name, content), by simp [hrecords], rfl⟩)

theorem forgedTree_noCollisions : NoCollisions sampleCrates forgedTree sampleTree := by
  have hdistinct : (sampleContents.map (subdomainHash sampleCrates)).Nodup := by
    simp only [sampleContents, sampleRecords, List.map_cons, List.map_nil, List.cons_append,
      List.nil_append, sample_hashes]
    decide +kernel
  intro name name' content content' rest rest' h h' hhash
  apply List.inj_on_of_nodup_map hdistinct ?_ (sampleTree_content h') hhash
  unfold forgedTree at h
  split at h
  case isTrue =>
    cases h
    exact List.mem_append_right _ (List.mem_singleton_self _)
  case isFalse => exact sampleTree_content h

theorem forgedTree_walk :
    ((treeWalk forgedTree "nodes.test").run
      ({ stack := ["CCK5O6DIW7ABUSATZQS4G5Y7N4"] } : WalkState sampleCrates)).enrs =
        [sampleEnr] := by
  obtain ⟨-, hroot, -, hleaf, hforged⟩ := sample_hashes
  have hroot : Authentic sampleCrates forgedTree "nodes.test" "CCK5O6DIW7ABUSATZQS4G5Y7N4"
      ("enrtree-branch:" ++ "UZ4Q6VY73SFNOKQFTIYY22NMDI,VRBXVXK4CUFR6B6CSKTDUTUSRI") :=
    ⟨⟨[], rfl⟩, hroot⟩
  have hleaf : Authentic sampleCrates forgedTree "nodes.test" "VRBXVXK4CUFR6B6CSKTDUTUSRI"
      sampleEnr := ⟨⟨[], rfl⟩, hleaf⟩
  have hforged : authenticContent sampleCrates forgedTree "nodes.test"
      "UZ4Q6VY73SFNOKQFTIYY22NMDI" = none := by
    have hrecords : forgedTree ("UZ4Q6VY73SFNOKQFTIYY22NMDI" ++ "." ++ "nodes.test") =
        .ok ["enrtree-branch:AAAA"] := rfl
    rw [authenticContent, hrecords]
    exact if_neg (by rw [hforged]; decide)
  have henr : leafOf sampleCrates forgedTree "nodes.test" "VRBXVXK4CUFR6B6CSKTDUTUSRI" =
      some sampleEnr := by
    have hparsed : sampleCrates.enrFromStr sampleEnr = some sampleEnr := by simp [sampleCrates]
    exact leafOf_eq_some.mpr ⟨_, hleaf, hparsed⟩
  have hnext : nextHashes sampleCrates forgedTree "nodes.test" "CCK5O6DIW7ABUSATZQS4G5Y7N4" =
      ["VRBXVXK4CUFR6B6CSKTDUTUSRI", "UZ4Q6VY73SFNOKQFTIYY22NMDI"] := by
    rw [nextHashes, childrenOf_branch hroot, sample_childHashes.1]
    rfl
  rw [treeWalk_fresh rfl (by simp) (by simp [maxRecords]), hnext, leafOf_branch hroot]
  rw [treeWalk_fresh rfl (by simp) (by simp [maxRecords]), henr, nextHashes, childrenOf_enr hleaf]
  rw [treeWalk_fresh rfl (by simp) (by simp [maxRecords]), nextHashes, childrenOf, leafOf, hforged]
  rw [Loop.run_of_none rfl]
  rfl

/-- Whatever a resolver answers, the ENRs that are returned are leaves of the tree under a signed
root. Without collisions they are leaves of the honest tree under the same signed root. -/
theorem enrtree_authentic (crates : DnsCrates) (url : String) (resolver : TxtResolver)
    (enrs : List crates.Enr) (h : resolve crates url resolver = .ok enrs) :
    ∃ link signed eRoot, parseEnrtree crates url = .ok link ∧
      SignedRoot crates resolver link signed eRoot ∧
      (∀ enr ∈ enrs, TreeLeaf crates resolver link.domain eRoot enr) ∧
      ∀ honest eRoot', SignedRoot crates honest link signed eRoot' →
        CompleteTree crates honest link.domain eRoot' → NoCollisions crates resolver honest →
        ∀ enr ∈ enrs, TreeLeaf crates honest link.domain eRoot' enr := by
  obtain ⟨link, records, record, root, hlink, hrecords, hrecord, hroot, henrs⟩ := resolve_ok.mp h
  obtain ⟨signed, rest, sig, hsplit, hsig, hlength, hverify, hhash⟩ := verifyRoot_ok.mp hroot
  obtain ⟨fetched, -, hwalk, hfetched, -⟩ := @treeWalk_spec crates resolver link.domain root.eRoot
  obtain ⟨hcut, hfirst⟩ := Text.splitOnce_eq_some.mp hsplit
  have hleaves : ∀ enr ∈ enrs, TreeLeaf crates resolver link.domain root.eRoot enr := by
    intro enr henr
    rw [henrs, hwalk] at henr
    obtain ⟨hash, hmem, hleaf⟩ := List.mem_filterMap.mp henr
    obtain ⟨text, htext, hparsed⟩ := leafOf_eq_some.mp hleaf
    exact ⟨hash, text, hfetched hash hmem, htext, hparsed⟩
  refine ⟨link, signed, root.eRoot, hlink, ?_, hleaves, ?_⟩
  · have hstart : Text.startsWith record "enrtree-root:v1" = true := by
      exact List.find?_some (p := fun r => Text.startsWith r "enrtree-root:v1") hrecord
    subst hcut
    exact ⟨records, rest, sig, hrecords, List.mem_of_find?_eq_some hrecord, hstart, hfirst, hsig,
      hlength, hverify, hhash⟩
  · intro honest eRoot' ⟨_, _, _, _, _, _, _, _, _, _, hhash'⟩ hcomplete hcollisions enr henr
    obtain rfl : root.eRoot = eRoot' := Option.some.inj (hhash.symm.trans hhash')
    obtain ⟨hash, text, hreach, htext, hparsed⟩ := hleaves enr henr
    have hreach' := hreach.honest hcomplete hcollisions
    obtain ⟨content, hcontent⟩ := hcomplete hash hreach'
    rw [← hcollisions.eq htext hcontent] at hcontent
    exact ⟨hash, text, hreach', hcontent, hparsed⟩

theorem enrtree_authentic_sample :
    resolve sampleCrates sampleUrl forgedTree = .ok [sampleEnr] ∧
    TreeLeaf sampleCrates sampleTree "nodes.test" "CCK5O6DIW7ABUSATZQS4G5Y7N4" sampleEnr := by
  have hforged : forgedTree sampleLink.domain = .ok [sampleRoot] := rfl
  have hresolve : resolve sampleCrates sampleUrl forgedTree = .ok [sampleEnr] :=
    resolve_ok.mpr ⟨sampleLink, [sampleRoot], sampleRoot, _, sampleLink_parsed, hforged,
      List.find?_cons_of_pos sampleRoot_parts.2, sampleRoot_verified, forgedTree_walk.symm⟩
  refine ⟨hresolve, ?_⟩
  obtain ⟨link, signed, eRoot, hlink, hsigned, -, hhonest⟩ :=
    enrtree_authentic sampleCrates sampleUrl forgedTree [sampleEnr] hresolve
  cases sampleLink_parsed.symm.trans hlink
  have hserved : SignedRoot sampleCrates sampleTree sampleLink signed eRoot := by
    have hsame : sampleTree sampleLink.domain = .ok [sampleRoot] := rfl
    unfold SignedRoot at hsigned ⊢
    rwa [hsame, ← hforged]
  obtain ⟨records, rest, -, hrecords, hmem, -, hfirst, -, -, -, hhash⟩ := hsigned
  cases hforged.symm.trans hrecords
  rw [List.mem_singleton.mp hmem] at hfirst
  have hsplit := Text.splitOnce_eq_some.mpr ⟨(List.mem_singleton.mp hmem).symm, hfirst⟩
  cases sampleRoot_parts.1.symm.trans hsplit
  cases sampleSigned_eHash.symm.trans hhash
  exact hhonest sampleTree _ hserved sampleTree_complete forgedTree_noCollisions sampleEnr
    List.mem_cons_self

/-- A tree within the record cap that is served completely is read completely: each of its
records once, however often it is listed. -/
theorem enrtree_complete (crates : DnsCrates) (url : String) (resolver : TxtResolver)
    (link : EnrTreeLink) (records : List String) (record : String) (root : RootRecord)
    (hlink : parseEnrtree crates url = .ok link) (hrecords : resolver link.domain = .ok records)
    (hrecord : records.find? (fun r => Text.startsWith r "enrtree-root:v1") = some record)
    (hroot : verifyRoot crates record link.pubkey = .ok root)
    (hserved : CompleteTree crates resolver link.domain root.eRoot)
    (hcap : {hash | InTree crates resolver link.domain root.eRoot hash}.encard ≤ maxRecords) :
    ∃ hashes : List String, hashes.Nodup ∧
      (∀ hash, hash ∈ hashes ↔ InTree crates resolver link.domain root.eRoot hash) ∧
      resolve crates url resolver =
        .ok (hashes.filterMap (leafOf crates resolver link.domain)) ∧
      ∀ hash enr, leafOf crates resolver link.domain hash = some enr ↔
        ∃ text, Authentic crates resolver link.domain hash ("enr:" ++ text) ∧
          crates.enrFromStr ("enr:" ++ text) = some enr := by
  obtain ⟨fetched, hnodup, hwalk, -, hall⟩ := @treeWalk_spec crates resolver link.domain root.eRoot
  refine ⟨fetched, hnodup, fun hash => ?_, ?_, fun hash enr => leafOf_eq_some⟩
  · rw [hall hcap]
    constructor
    · intro h
      exact h.1
    · intro h
      obtain ⟨content, hcontent⟩ := hserved hash h
      exact ⟨h, authentic_ne_empty hcontent⟩
  · exact resolve_ok.mpr ⟨link, records, record, root, hlink, hrecords, hrecord, hroot, hwalk.symm⟩

theorem enrtree_complete_sample :
    ∃ hashes : List String, hashes.Nodup ∧
      (∀ hash, hash ∈ hashes ↔
        InTree sampleCrates sampleTree "nodes.test" "CCK5O6DIW7ABUSATZQS4G5Y7N4" hash) ∧
      resolve sampleCrates sampleUrl sampleTree =
        .ok (hashes.filterMap (leafOf sampleCrates sampleTree "nodes.test")) ∧
      ∀ hash enr, leafOf sampleCrates sampleTree "nodes.test" hash = some enr ↔
        ∃ text, Authentic sampleCrates sampleTree "nodes.test" hash ("enr:" ++ text) ∧
          sampleCrates.enrFromStr ("enr:" ++ text) = some enr := by
  have hcap : {hash | InTree sampleCrates sampleTree "nodes.test" "CCK5O6DIW7ABUSATZQS4G5Y7N4"
      hash}.encard ≤ maxRecords := by
    calc
      _ ≤ (sampleHashes.toFinset : Set String).encard :=
        Set.encard_le_encard fun hash h => List.mem_toFinset.mpr (sampleTree_mem h)
      _ ≤ maxRecords := by
        rw [Set.encard_coe_eq_coe_finsetCard, Nat.cast_le]
        exact (List.toFinset_card_le _).trans (by simp [sampleHashes, maxRecords])
  exact enrtree_complete sampleCrates sampleUrl sampleTree sampleLink [sampleRoot] sampleRoot
    { eRoot := "CCK5O6DIW7ABUSATZQS4G5Y7N4" } sampleLink_parsed rfl
    (List.find?_cons_of_pos sampleRoot_parts.2) sampleRoot_verified sampleTree_complete hcap

end RsWaku
