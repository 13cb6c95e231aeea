import FleetLabels.Proofs.Discovery.Versions
import FleetLabels.Proofs.Remote.Server
import Mathlib.Data.List.Nodup

/-!
# When policies are found

A look asks a cluster for its groups and for all versions of the group of policies, but decides by
one version alone, the recommended one. So policies that are served can be overlooked: if the group
prefers another version, they are not found in the version in which they are asked for, though it is
listed and has them.

A cluster answers with documents, which need not fit together. `PoliciesRecommended` is the condition
for any documents whatever; `Coherent` says that they fit, and then the condition is that policies
are served, and that their version is the recommended one.

## Main results

* `check_fst` — the result of a look without the log that it keeps.
* `Discovered.check_eq_present_iff` — when policies are found.
* `Coherent.policiesRecommended_iff` — the same for documents that fit together.
* `found_iff_recommended` — the whole of it, with when a look fails.
* `check_overlooks_unpreferred` — policies that are served and not found.
-/

namespace FleetLabels

/-! ## Lists of optional values -/

section Optional

variable {α β : Type} {f : α → Option β} {l : List α}

theorem mapM_cons_eq_some_iff {a : α} {bs : List β} :
    (a :: l).mapM f = some bs ↔ ∃ b bs', f a = some b ∧ l.mapM f = some bs' ∧ bs = b :: bs' := by
  rw [List.mapM_cons]
  cases f a with
  | none => simp
  | some b =>
      cases l.mapM f with
      | none => simp
      | some bs' => simp [eq_comm]

/-- All values are there if each of them is. -/
theorem exists_mapM_eq_some_iff :
    (∃ bs, l.mapM f = some bs) ↔ ∀ a ∈ l, ∃ b, f a = some b := by
  induction l with
  | nil => simp
  | cons a l ih =>
      simp only [mapM_cons_eq_some_iff, List.forall_mem_cons, ← ih]
      constructor
      · rintro ⟨_, b, bs', hb, hbs, -⟩
        exact ⟨⟨b, hb⟩, bs', hbs⟩
      · rintro ⟨⟨b, hb⟩, bs', hbs⟩
        exact ⟨_, b, bs', hb, hbs, rfl⟩

/-- The last of the values is that of the last item. -/
theorem getLast?_of_mapM_eq_some {bs : List β} (h : l.mapM f = some bs) :
    bs.getLast? = l.getLast?.bind f := by
  induction l using List.reverseRecOn generalizing bs with
  | nil =>
      cases h
      rfl
  | append_singleton l a _ =>
      rw [List.mapM_append] at h
      obtain ⟨bs', -, hrest⟩ := Option.bind_eq_some_iff.1 h
      obtain ⟨cs, hlast, hbs⟩ := Option.bind_eq_some_iff.1 hrest
      obtain ⟨b, none, hb, hnone, rfl⟩ := mapM_cons_eq_some_iff.1 hlast
      cases hnone
      cases hbs
      simp [hb]

end Optional

/-! ## The only item that passes a test -/

section Only

variable {α : Type} {p : α → Bool} {l : List α} {a : α}

theorem find?_eq_some_of_only (ha : a ∈ l) (hp : p a = true)
    (honly : ∀ x ∈ l, p x = true → x = a) : l.find? p = some a := by
  cases hfind : l.find? p with
  | none => exact absurd hp (List.find?_eq_none.1 hfind a ha)
  | some x => rw [honly x (List.mem_of_find?_eq_some hfind) (List.find?_some hfind)]

theorem getLast?_filter_eq_some_of_only (ha : a ∈ l) (hp : p a = true)
    (honly : ∀ x ∈ l, p x = true → x = a) : (l.filter p).getLast? = some a := by
  have hmem : a ∈ l.filter p := List.mem_filter.2 ⟨ha, hp⟩
  cases hlast : (l.filter p).getLast? with
  | none => exact absurd (List.getLast?_eq_none_iff.1 hlast) (List.ne_nil_of_mem hmem)
  | some x =>
      obtain ⟨hx, hpx⟩ := List.mem_filter.1 (List.mem_of_getLast? hlast)
      rw [honly x hx hpx]

end Only

namespace Discovery

variable {α : Type} {respond : String → Response}

/-! ## What is answered -/

/-- What the answer to a question comes to, if it can be read. -/
def answer? (respond : String → Response) (path : String) (read : Json → Except Fault α) :
    Option α :=
  (fetch respond path read []).1

/-- The resources of a version, if the cluster tells them. -/
def resources? (respond : String → Response) (v : GroupVersion) : Option ApiResources :=
  answer? respond ("/apis/" ++ v.groupVersion) ApiResources.ofJson

/-- What a group serves, if the cluster tells it for every version. -/
def served? (respond : String → Response) (g : ApiGroup) : Option Served :=
  g.versions.mapM fun v => (resources? respond v).map fun list => (v.version, kinds list)

/-- Whether a group serves policies, if the cluster tells it. -/
def groupServes? (respond : String → Response) (g : ApiGroup) : Option Bool :=
  if g.versions.isEmpty then none else (served? respond g).map (servesPolicies g)

/-- Whether a group is that of policies. -/
def isPolicyGroup (g : ApiGroup) : Bool :=
  g.name = Policy.group

theorem fetch_fst (respond : String → Response) (path : String) (read : Json → Except Fault α)
    (log : List String) :
    (fetch respond path read log).1 = answer? respond path read := by
  unfold answer? fetch
  cases Uri.check path <;> rfl

/-- The log of a look has no part in its result. -/
theorem versions_fst (respond : String → Response) (vs : List GroupVersion) (log : List String) :
    (versions respond vs log).1 =
      vs.mapM fun v => (resources? respond v).map fun list => (v.version, kinds list) := by
  induction vs generalizing log with
  | nil => rfl
  | cons v vs ih =>
      have hfetch := fetch_fst respond ("/apis/" ++ v.groupVersion) ApiResources.ofJson log
      rw [versions, List.mapM_cons, resources?, ← hfetch]
      rcases fetch respond ("/apis/" ++ v.groupVersion) ApiResources.ofJson log with ⟨_ | list, log'⟩
      · rfl
      · have hrest := ih log'
        simp only [Option.map_some, ← hrest]
        rcases versions respond vs log' with ⟨_ | served, log''⟩ <;> rfl

/-- Of several groups of the policies' name the last one counts. -/
theorem groups_fst (respond : String → Response) (found : Bool) (gs : List ApiGroup)
    (log : List String) :
    (groups respond found gs log).1 =
      ((gs.filter isPolicyGroup).mapM (groupServes? respond)).map (·.getLast?.getD found) := by
  induction gs generalizing found log with
  | nil => rfl
  | cons g gs ih =>
      rw [groups]
      by_cases hname : g.name = Policy.group
      · have hfilter : (g :: gs).filter isPolicyGroup = g :: gs.filter isPolicyGroup :=
          List.filter_cons_of_pos (by simpa [isPolicyGroup] using hname)
        rw [if_neg (not_not.2 hname), hfilter, List.mapM_cons, groupServes?]
        by_cases hempty : g.versions.isEmpty
        · rw [if_pos hempty, if_pos hempty]
          rfl
        · have hversions := versions_fst respond g.versions log
          rw [if_neg hempty, if_neg hempty, served?, ← hversions]
          rcases versions respond g.versions log with ⟨_ | served, log'⟩
          · rfl
          · simp only [ih]
            rcases (gs.filter isPolicyGroup).mapM (groupServes? respond) with _ | rs
            · rfl
            · simp [List.getLast?_cons]
      · have hfilter : (g :: gs).filter isPolicyGroup = gs.filter isPolicyGroup :=
          List.filter_cons_of_neg (by simpa [isPolicyGroup] using hname)
        rw [if_pos hname, hfilter, ih]

/-- Whether policies are found, if the cluster tells all that it is asked for. -/
def found? (respond : String → Response) : Option Bool :=
  (answer? respond groupsPath ApiGroup.listOfJson).bind fun gs =>
    ((gs.filter isPolicyGroup).mapM (groupServes? respond)).map (·.getLast?.getD false)

/-- The result of a look by what was found. -/
def verdict : Option Bool → Check
  | some true => .present
  | some false => .absent
  | none => .failed

theorem verdict_ne_failed_iff {o : Option Bool} : verdict o ≠ .failed ↔ ∃ b, o = some b := by
  rcases o with _ | _ | _ <;> simp [verdict]

theorem verdict_eq_present_iff {o : Option Bool} : verdict o = .present ↔ o = some true := by
  rcases o with _ | _ | _ <;> simp [verdict]

/-- The result of a look, without the log. -/
theorem check_fst (respond : String → Response) : (check respond).1 = verdict (found? respond) := by
  have hfetch := fetch_fst respond groupsPath ApiGroup.listOfJson []
  rw [check, found?, ← hfetch]
  rcases fetch respond groupsPath ApiGroup.listOfJson [] with ⟨_ | gs, log⟩
  · rfl
  · have hgroups := groups_fst respond false gs log
    simp only [Option.bind_some, ← hgroups]
    rcases groups respond false gs log with ⟨_ | _ | _, log'⟩ <;> rfl

/-! ## When policies are found -/

/-- Every question of a look is answered: the cluster tells its groups, and what each version of the
group of policies serves. -/
structure Discovered (respond : String → Response) (gs : List ApiGroup) : Prop where
  groups : answer? respond groupsPath ApiGroup.listOfJson = some gs
  lists : ∀ g ∈ gs, g.name = Policy.group → g.versions ≠ []
  resources : ∀ g ∈ gs, g.name = Policy.group →
    ∀ v ∈ g.versions, ∃ list, resources? respond v = some list

/-- Among the resources are policies in the version in which they are asked for. A resource that
names no version has that of the list. -/
def OffersPolicies (list : ApiResources) : Prop :=
  ∃ r ∈ list.resources, isTopLevel r = true ∧ r.kind = Policy.kind ∧
    r.version.getD (versionPart list.groupVersion) = Policy.version

/-- The recommended version of the group of policies offers them. Of several groups of this name the
last one counts, and of several versions of one name the first. -/
def PoliciesRecommended (respond : String → Response) (gs : List ApiGroup) : Prop :=
  ∃ g, (gs.filter isPolicyGroup).getLast? = some g ∧ ∃ w, g.Recommends w ∧
    ∃ v, g.versions.find? (·.version = w) = some v ∧
      ∃ list, resources? respond v = some list ∧ OffersPolicies list

theorem mem_kinds_iff (list : ApiResources) :
    (kinds list).contains (Policy.kind, Policy.version) = true ↔ OffersPolicies list := by
  simp only [kinds, List.contains_iff_mem, List.mem_map, List.mem_filter, Prod.mk.injEq,
    OffersPolicies, and_assoc]

/-- What a group serves in a version is what the first version of that name serves. -/
theorem lookup_served {vs : List GroupVersion} {served : Served} {w : String}
    (h : (vs.mapM fun v => (resources? respond v).map fun list => (v.version, kinds list)) =
      some served) :
    served.lookup w =
      (vs.find? (·.version = w)).bind fun v => (resources? respond v).map kinds := by
  induction vs generalizing served with
  | nil =>
      cases h
      rfl
  | cons v vs ih =>
      obtain ⟨entry, rest, hentry, hrest, rfl⟩ := mapM_cons_eq_some_iff.1 h
      obtain ⟨list, hlist, rfl⟩ := Option.map_eq_some_iff.1 hentry
      rw [Entries.lookup_cons, ih hrest]
      by_cases hv : v.version = w
      · simp [hv, hlist]
      · simp [hv, Ne.symm hv]

/-- A group serves policies if its recommended version offers them. -/
theorem servesPolicies_iff {g : ApiGroup} {served : Served} (h : served? respond g = some served) :
    servesPolicies g served = true ↔ ∃ w, g.Recommends w ∧
      ∃ v, g.versions.find? (·.version = w) = some v ∧
        ∃ list, resources? respond v = some list ∧ OffersPolicies list := by
  simp only [← recommended?_eq_some_iff, ← mem_kinds_iff]
  unfold servesPolicies
  cases recommended? g with
  | none => simp
  | some w =>
      simp only [lookup_served h, Option.some.injEq, exists_eq_left']
      cases g.versions.find? (·.version = w) with
      | none => simp
      | some v =>
          simp only [Option.bind_some, Option.some.injEq, exists_eq_left']
          cases resources? respond v with
          | none => simp
          | some list => simp

theorem isPolicyGroup_iff {g : ApiGroup} : isPolicyGroup g = true ↔ g.name = Policy.group := by
  simp [isPolicyGroup]

theorem groupServes?_eq_some_iff {g : ApiGroup} {b : Bool} :
    groupServes? respond g = some b ↔
      g.versions ≠ [] ∧ ∃ served, served? respond g = some served ∧ servesPolicies g served = b := by
  rw [groupServes?]
  by_cases hempty : g.versions = []
  · simp [hempty]
  · rw [if_neg (by simpa using hempty), Option.map_eq_some_iff]
    simp [hempty]

/-- A group is told exactly if it has versions and each of them is. -/
theorem exists_groupServes?_iff {g : ApiGroup} :
    (∃ b, groupServes? respond g = some b) ↔
      g.versions ≠ [] ∧ ∀ v ∈ g.versions, ∃ list, resources? respond v = some list := by
  have hserved : (∃ served, served? respond g = some served) ↔
      ∀ v ∈ g.versions, ∃ list, resources? respond v = some list := by
    rw [served?, exists_mapM_eq_some_iff]
    simp [Option.map_eq_some_iff]
  simp only [groupServes?_eq_some_iff, ← hserved]
  constructor
  · rintro ⟨b, hlists, served, hs, -⟩
    exact ⟨hlists, served, hs⟩
  · rintro ⟨hlists, served, hs⟩
    exact ⟨_, hlists, served, hs, rfl⟩

/-- A look does not fail exactly if all of its questions are answered. -/
theorem check_ne_failed_iff (respond : String → Response) :
    (check respond).1 ≠ .failed ↔ ∃ gs, Discovered respond gs := by
  have htold (gs : List ApiGroup) :
      (∃ bs, (gs.filter isPolicyGroup).mapM (groupServes? respond) = some bs) ↔
        ∀ g ∈ gs, g.name = Policy.group →
          g.versions ≠ [] ∧ ∀ v ∈ g.versions, ∃ list, resources? respond v = some list := by
    simp only [exists_mapM_eq_some_iff, List.mem_filter, isPolicyGroup_iff, and_imp,
      exists_groupServes?_iff]
  rw [check_fst, verdict_ne_failed_iff, found?]
  constructor
  · rintro ⟨b, hfound⟩
    obtain ⟨gs, hgroups, hserves⟩ := Option.bind_eq_some_iff.1 hfound
    obtain ⟨bs, hbs, -⟩ := Option.map_eq_some_iff.1 hserves
    have hall := (htold gs).1 ⟨bs, hbs⟩
    exact ⟨gs, hgroups, fun g hg hname => (hall g hg hname).1,
      fun g hg hname => (hall g hg hname).2⟩
  · rintro ⟨gs, hgroups, hlists, hresources⟩
    obtain ⟨bs, hbs⟩ := (htold gs).2 fun g hg hname =>
      ⟨hlists g hg hname, hresources g hg hname⟩
    exact ⟨_, by rw [hgroups, Option.bind_some, hbs, Option.map_some]⟩

/-- Policies are found exactly if the recommended version offers them. -/
theorem Discovered.check_eq_present_iff {gs : List ApiGroup} (h : Discovered respond gs) :
    (check respond).1 = .present ↔ PoliciesRecommended respond gs := by
  obtain ⟨b, hfound⟩ := verdict_ne_failed_iff.1
    (check_fst respond ▸ (check_ne_failed_iff respond).2 ⟨gs, h⟩)
  rw [check_fst, verdict_eq_present_iff, found?, h.groups, Option.bind_some]
  rw [found?, h.groups, Option.bind_some] at hfound
  obtain ⟨bs, hbs, -⟩ := Option.map_eq_some_iff.1 hfound
  rw [hbs, Option.map_some, getLast?_of_mapM_eq_some hbs, PoliciesRecommended]
  cases hgroup : (gs.filter isPolicyGroup).getLast? with
  | none => simp
  | some g =>
      have hmem := List.mem_of_getLast? hgroup
      obtain ⟨serves, hserves⟩ := exists_mapM_eq_some_iff.1 ⟨bs, hbs⟩ g hmem
      obtain ⟨-, served, hserved, rfl⟩ := groupServes?_eq_some_iff.1 hserves
      simp only [Option.bind_some, hserves, Option.getD_some, Option.some.injEq, exists_eq_left',
        servesPolicies_iff hserved]

/-! ## Documents that fit together -/

/-- The documents fit together: groups and versions of one name are one, a version is listed under
the address of its name, and its list of resources says for which version it is, as do those
resources that name one. -/
structure Coherent (respond : String → Response) (gs : List ApiGroup) : Prop where
  groups : (gs.map (·.name)).Nodup
  versions : ∀ g ∈ gs, g.name = Policy.group → (g.versions.map (·.version)).Nodup
  address : ∀ g ∈ gs, g.name = Policy.group → ∀ v ∈ g.versions,
    v.groupVersion = Policy.group ++ "/" ++ v.version
  resources : ∀ g ∈ gs, g.name = Policy.group → ∀ v ∈ g.versions, ∀ list,
    resources? respond v = some list →
      list.groupVersion = v.groupVersion ∧ ∀ r ∈ list.resources, isTopLevel r = true →
        ∀ w ∈ r.version, w = v.version

/-- Policies are served: their group lists the version in which they are asked for, and the resources
of this version have them. -/
def PoliciesServed (respond : String → Response) (gs : List ApiGroup) : Prop :=
  ∃ g ∈ gs, g.name = Policy.group ∧ ∃ v ∈ g.versions, v.version = Policy.version ∧
    ∃ list, resources? respond v = some list ∧
      ∃ r ∈ list.resources, isTopLevel r = true ∧ r.kind = Policy.kind

theorem versionPart_append {group : String} (h : '/' ∉ group.toList) (version : String) :
    versionPart (group ++ "/" ++ version) = version := by
  have hgroup : ∀ c ∈ group.toList, (c != '/') = true := by
    intro c hc
    simp only [bne_iff_ne]
    rintro rfl
    exact h hc
  have hdrop : (group ++ "/" ++ version).toList.dropWhile (· != '/') = '/' :: version.toList := by
    simp [String.toList_append, List.append_assoc, List.dropWhile_append_of_pos hgroup]
  rw [versionPart, hdrop]
  exact String.ofList_toList

/-- In documents that fit together a top-level resource has the version of its list. -/
theorem Coherent.version_eq {gs : List ApiGroup} (h : Coherent respond gs) {g : ApiGroup}
    (hg : g ∈ gs) (hname : g.name = Policy.group) {v : GroupVersion} (hv : v ∈ g.versions)
    {list : ApiResources} (hlist : resources? respond v = some list) {r : ApiResource}
    (hr : r ∈ list.resources) (htop : isTopLevel r = true) :
    r.version.getD (versionPart list.groupVersion) = v.version := by
  obtain ⟨hgroupVersion, hversions⟩ := h.resources g hg hname v hv list hlist
  cases hversion : r.version with
  | none =>
      rw [Option.getD_none, hgroupVersion, h.address g hg hname v hv,
        versionPart_append (by decide)]
  | some w => exact hversions r hr htop w hversion

/-- In documents that fit together policies are recommended if they are served and their version is
the recommended one. -/
theorem Coherent.policiesRecommended_iff {gs : List ApiGroup} (h : Coherent respond gs) :
    PoliciesRecommended respond gs ↔
      PoliciesServed respond gs ∧
        ∃ g ∈ gs, g.name = Policy.group ∧ g.Recommends Policy.version := by
  constructor
  · rintro ⟨g, hlast, w, hw, v, hfind, list, hlist, r, hr, htop, hkind, hversion⟩
    obtain ⟨hg, hname⟩ := List.mem_filter.1 (List.mem_of_getLast? hlast)
    have hname := isPolicyGroup_iff.1 hname
    have hv := List.mem_of_find?_eq_some hfind
    have hvw : v.version = w := by simpa using List.find?_some hfind
    have hpolicies : v.version = Policy.version :=
      (h.version_eq hg hname hv hlist hr htop).symm.trans hversion
    exact ⟨⟨g, hg, hname, v, hv, hpolicies, list, hlist, r, hr, htop, hkind⟩, g, hg, hname,
      hpolicies ▸ hvw ▸ hw⟩
  · rintro ⟨⟨g, hg, hname, v, hv, hversion, list, hlist, r, hr, htop, hkind⟩, g', hg', hname', hw⟩
    have hgroup {x : ApiGroup} (hx : x ∈ gs) (hxname : x.name = Policy.group) : x = g :=
      List.inj_on_of_nodup_map h.groups hx hg (hxname.trans hname.symm)
    obtain rfl := hgroup hg' hname'
    have hlast : (gs.filter isPolicyGroup).getLast? = some g' :=
      getLast?_filter_eq_some_of_only hg (isPolicyGroup_iff.2 hname) fun x hx hxname =>
        hgroup hx (isPolicyGroup_iff.1 hxname)
    have hfind : g'.versions.find? (·.version = Policy.version) = some v := by
      refine find?_eq_some_of_only hv (by simpa using hversion) fun x hx hxversion => ?_
      have hxv : x.version = v.version := by simpa [hversion] using hxversion
      exact List.inj_on_of_nodup_map (h.versions g' hg hname) hx hv hxv
    exact ⟨g', hlast, Policy.version, hw, v, hfind, list, hlist, r, hr, htop, hkind,
      (h.version_eq hg hname hv hlist hr htop).trans hversion⟩

/-- **When policies are found.** A look fails exactly if one of its questions is not answered. If all
are, policies are found exactly if the recommended version offers them; and if the answers fit
together, this is so exactly if policies are served and the recommended version is theirs. -/
theorem found_iff_recommended (respond : String → Response) :
    ((check respond).1 ≠ .failed ↔ ∃ gs, Discovered respond gs) ∧
    ∀ gs, Discovered respond gs →
      ((check respond).1 = .present ↔ PoliciesRecommended respond gs) ∧
      (Coherent respond gs →
        ((check respond).1 = .present ↔
          PoliciesServed respond gs ∧
            ∃ g ∈ gs, g.name = Policy.group ∧ g.Recommends Policy.version)) :=
  ⟨check_ne_failed_iff respond, fun _ h => ⟨h.check_eq_present_iff, fun hcoherent =>
    h.check_eq_present_iff.trans hcoherent.policiesRecommended_iff⟩⟩

/-! ## A cluster with two versions -/

/-- The two versions in which a cluster serves policies. -/
def twoVersions : List String := ["v1", Policy.version]

/-- One of them. -/
def groupVersion (version : String) : GroupVersion where
  groupVersion := Policy.group ++ "/" ++ version
  version

/-- The group of policies, with the version that it prefers. -/
def policyGroup (preferred : String) : ApiGroup where
  name := Policy.group
  preferredVersion := some (groupVersion preferred)
  versions := twoVersions.map groupVersion

/-- The resources of a version: policies alone. -/
def policyResources (version : String) : ApiResources where
  groupVersion := Policy.group ++ "/" ++ version
  resources := [{ kind := Policy.kind, name := Policy.plural, version := none }]

/-- The document of a version. -/
def versionDocument (version : String) : Json :=
  .object [("groupVersion", .string (Policy.group ++ "/" ++ version)),
    ("version", .string version)]

/-- The document of the groups. -/
def groupsDocument (preferred : String) : Json :=
  .object [("groups", .array [.object [("name", .string Policy.group),
    ("preferredVersion", versionDocument preferred),
    ("versions", .array (twoVersions.map versionDocument))]])]

/-- The document of the resources of a version. -/
def resourcesDocument (version : String) : Json :=
  .object [("groupVersion", .string (Policy.group ++ "/" ++ version)),
    ("resources", .array [.object [("kind", .string Policy.kind),
      ("name", .string Policy.plural)]])]

/-- A cluster that serves policies in both versions, and prefers one of them. -/
def twoVersionCluster (preferred path : String) : Response :=
  if path = groupsPath then .reply .compact 200 (groupsDocument preferred)
  else if path = "/apis/nlp.lento.dev/v1" then .reply .compact 200 (resourcesDocument "v1")
  else .reply .compact 200 (resourcesDocument Policy.version)

theorem answer?_of_reply {path : String} {read : Json → Except Fault α} {j : Json} {a : α}
    (huri : Uri.check path = .ok path) (hpath : Uri.path path = path)
    (hrespond : respond path = .reply .compact 200 j) (hlegible : j.isLegible = true)
    (hread : read j = .ok a) : answer? respond path read = some a := by
  simp only [answer?, fetch, huri, hpath, hrespond,
    Response.document_reply .compact hlegible hread, Except.toOption]

theorem resources?_twoVersionCluster (preferred : String) {version : String}
    (h : version ∈ twoVersions) :
    resources? (twoVersionCluster preferred) (groupVersion version) =
      some (policyResources version) := by
  simp only [twoVersions, List.mem_cons, List.not_mem_nil, or_false] at h
  rcases h with rfl | rfl
  · exact answer?_of_reply (by decide) (by decide) rfl rfl rfl
  · exact answer?_of_reply (by decide) (by decide) rfl rfl rfl

theorem discovered_twoVersionCluster (preferred : String) :
    Discovered (twoVersionCluster preferred) [policyGroup preferred] where
  groups := answer?_of_reply (by decide) (by decide) rfl rfl rfl
  lists g hg _ := by
    simp [List.mem_singleton.1 hg, policyGroup, twoVersions]
  resources g hg _ v hv := by
    rw [List.mem_singleton.1 hg] at hv
    obtain ⟨version, hversion, rfl⟩ := List.mem_map.1 hv
    exact ⟨_, resources?_twoVersionCluster preferred hversion⟩

theorem coherent_twoVersionCluster (preferred : String) :
    Coherent (twoVersionCluster preferred) [policyGroup preferred] where
  groups := List.nodup_singleton _
  versions g hg _ := by
    have hnodup : ((twoVersions.map groupVersion).map (·.version)).Nodup := by decide
    exact List.mem_singleton.1 hg ▸ hnodup
  address g hg _ v hv := by
    rw [List.mem_singleton.1 hg] at hv
    obtain ⟨version, -, rfl⟩ := List.mem_map.1 hv
    rfl
  resources g hg _ v hv list hlist := by
    rw [List.mem_singleton.1 hg] at hv
    obtain ⟨version, hversion, rfl⟩ := List.mem_map.1 hv
    rw [resources?_twoVersionCluster preferred hversion] at hlist
    obtain rfl := Option.some.inj hlist
    exact ⟨rfl, by simp [policyResources]⟩

/-- Policies are served whichever version the group prefers. -/
theorem policiesServed_twoVersionCluster (preferred : String) :
    PoliciesServed (twoVersionCluster preferred) [policyGroup preferred] := by
  have hversion : Policy.version ∈ twoVersions := by decide
  refine ⟨policyGroup preferred, List.mem_singleton_self _, rfl, groupVersion Policy.version,
    List.mem_map_of_mem hversion, rfl, _, resources?_twoVersionCluster preferred hversion, ?_⟩
  exact ⟨_, List.mem_singleton_self _, by decide, rfl⟩

theorem recommends_policyGroup_iff {preferred w : String} :
    (policyGroup preferred).Recommends w ↔ w = preferred := by
  rw [← recommended?_eq_some_iff]
  exact ⟨fun h => (Option.some.inj h).symm, fun h => congrArg some h.symm⟩

/-- If the group prefers the version in which policies are asked for, they are found. -/
theorem found_iff_recommended_preferred :
    Discovered (twoVersionCluster Policy.version) [policyGroup Policy.version] ∧
      Coherent (twoVersionCluster Policy.version) [policyGroup Policy.version] ∧
      (check (twoVersionCluster Policy.version)).1 = .present := by
  have hdiscovered := discovered_twoVersionCluster Policy.version
  have hcoherent := coherent_twoVersionCluster Policy.version
  obtain ⟨-, hfound⟩ := found_iff_recommended (twoVersionCluster Policy.version)
  refine ⟨hdiscovered, hcoherent, ((hfound _ hdiscovered).2 hcoherent).2 ⟨?_, ?_⟩⟩
  · exact policiesServed_twoVersionCluster Policy.version
  · exact ⟨_, List.mem_singleton_self _, rfl, recommends_policyGroup_iff.2 rfl⟩

/-- If it prefers another version that it serves, they are not found, though they are served as
before: the group lists their version, and the resources of this version have them. -/
theorem check_overlooks_unpreferred :
    Discovered (twoVersionCluster "v1") [policyGroup "v1"] ∧
      Coherent (twoVersionCluster "v1") [policyGroup "v1"] ∧
      PoliciesServed (twoVersionCluster "v1") [policyGroup "v1"] ∧
      (check (twoVersionCluster "v1")).1 = .absent := by
  have hdiscovered := discovered_twoVersionCluster "v1"
  have hcoherent := coherent_twoVersionCluster "v1"
  refine ⟨hdiscovered, hcoherent, policiesServed_twoVersionCluster "v1", ?_⟩
  have hnotFailed := (check_ne_failed_iff _).2 ⟨_, hdiscovered⟩
  have hnotPresent : (check (twoVersionCluster "v1")).1 ≠ .present := by
    rw [ne_eq, hdiscovered.check_eq_present_iff, hcoherent.policiesRecommended_iff]
    rintro ⟨-, g, hg, -, hrecommends⟩
    rw [List.mem_singleton.1 hg, recommends_policyGroup_iff] at hrecommends
    exact absurd hrecommends (by decide)
  cases hcheck : (check (twoVersionCluster "v1")).1 with
  | present => exact absurd hcheck hnotPresent
  | absent => rfl
  | failed => exact absurd hcheck hnotFailed

end Discovery

end FleetLabels
