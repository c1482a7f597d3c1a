import WireguardMesh.Core.Models
import WireguardMesh.Net.Masked

/-! # Route lists of nodes

`core/routes.go`: the VPN prefix of an address, the exchange of one VPN prefix for another
in a route list, and the routes a node gets when it has none. Route lists are compared as sets of
prefixes (`routeTexts`): an exchange takes the old prefix out and puts the new one in, whether or
not it was there before (`mem_replaceVPNRoute`).
-/

namespace Core

open GoText Net

/-- `core.VPNPrefixFromAddress`; none for its errors. -/
def vpnPrefixFromAddress (addr : String) : Option String :=
  match parsePrefix (trimSpace addr.toList) with
  | none => none
  | some p => if p.ip.is4 then some (String.ofList p.masked.string) else none

/-- The loop of `ReplaceVPNRoute`, with the flag `replaced` and the routes kept so far. -/
def replaceVPNRouteLoop (oldS newS : List Char) :
    List String → Bool → List (List Char) → Option (List (List Char) × Bool)
  | [], replaced, out => some (out, replaced)
  | r :: routes, replaced, out =>
    match parsePrefix r.toList with
    | none => none
    | some p =>
      if p.masked.string = oldS then
        replaceVPNRouteLoop oldS newS routes true (if replaced then out else out ++ [newS])
      else replaceVPNRouteLoop oldS newS routes replaced (out ++ [p.masked.string])

/-- `core.ReplaceVPNRoute`; none for its errors. -/
def replaceVPNRoute (routes : List String) (oldPrefix newPrefix : String) : Option (List String) :=
  match parsePrefix oldPrefix.toList, parsePrefix newPrefix.toList with
  | some oldP, some newP =>
    match replaceVPNRouteLoop oldP.masked.string newP.masked.string routes false [] with
    | none => none
    | some (out, replaced) =>
      let out := if replaced then out else out ++ [newP.masked.string]
      (normalizeRouteCIDRs (out.map String.ofList)).map (List.map String.ofList)
  | _, _ => none

/-! ## Route lists as sets -/

/-- The prefixes of a route list, by their canonical texts. -/
def routeTexts (routes : List String) : List (List Char) :=
  routes.filterMap fun r => (parsePrefix r.toList).map fun p => p.masked.string

/-- The text of a masked prefix. -/
def Canonical (text : List Char) : Prop :=
  ∃ p, parsePrefix text = some p ∧ p.masked.string = text

theorem canonical_masked {s : List Char} {p : Prefix} (parsed : parsePrefix s = some p) :
    Canonical p.masked.string := by
  have valid := isValid_of_parsePrefix parsed
  exact ⟨p.masked, parsePrefix_string (Prefix.masked_parts valid).2.2,
    congrArg Prefix.string (Prefix.masked_idem valid)⟩

theorem canonical_vpnPrefixFromAddress {addr pfx : String}
    (home : vpnPrefixFromAddress addr = some pfx) : Canonical pfx.toList := by
  rw [vpnPrefixFromAddress] at home
  split at home
  · cases home
  · next parsed =>
    split at home
    · cases home
      exact String.toList_ofList.symm ▸ canonical_masked parsed
    · cases home

section

variable {x : List Char}

theorem mem_routeTexts_cons {r : String} {routes : List String} {p : Prefix}
    (parsed : parsePrefix r.toList = some p) :
    x ∈ routeTexts (r :: routes) ↔ x = p.masked.string ∨ x ∈ routeTexts routes := by
  rw [routeTexts, List.filterMap_cons_some (by rw [parsed]; rfl), List.mem_cons, routeTexts]

theorem canonical_of_mem {routes : List String} (listed : x ∈ routeTexts routes) : Canonical x := by
  obtain ⟨r, _, read⟩ := List.mem_filterMap.mp listed
  obtain ⟨p, parsed, rfl⟩ := Option.map_eq_some_iff.mp read
  exact canonical_masked parsed

theorem routeTexts_ofList : ∀ {texts : List (List Char)}, (∀ t ∈ texts, Canonical t) →
    routeTexts (texts.map String.ofList) = texts
  | [], _ => rfl
  | t :: texts, canonical => by
    obtain ⟨p, parsed, same⟩ := canonical t (.head _)
    rw [List.map_cons, routeTexts, List.filterMap_cons_some
      (by rw [String.toList_ofList, parsed]; rfl)]
    exact congrArg₂ List.cons same
      (routeTexts_ofList fun u listed => canonical u (.tail _ listed))

theorem mem_normalizeRouteLoop : ∀ {texts out result : List (List Char)},
    (∀ t ∈ texts, Canonical t) → normalizeRouteLoop (texts.map String.ofList) out = some result →
    (x ∈ result ↔ x ∈ out ∨ x ∈ texts)
  | [], out, _, _, done => by
    cases done
    simp
  | t :: texts, out, result, canonical, done => by
    obtain ⟨p, parsed, same⟩ := canonical t (.head _)
    have started : t ≠ [] := by
      rintro rfl
      cases parsed
    have later := fun u (listed : u ∈ texts) => canonical u (.tail _ listed)
    rw [List.map_cons, normalizeRouteLoop, String.toList_ofList,
      trimSpace_of_parsePrefix parsed] at done
    simp only [if_neg started, parsed, same] at done
    split at done
    · cases done
    · split at done
      · next seen =>
        rw [mem_normalizeRouteLoop later done, List.mem_cons]
        grind
      · rw [mem_normalizeRouteLoop later done, List.mem_append, List.mem_singleton, List.mem_cons,
          or_assoc]

/-- The loop, apart from the new prefix: it takes the old prefix out. -/
theorem replaceVPNRouteLoop_eq_some {old new : List Char} : ∀ {routes : List String}
    {replaced flag : Bool} {out result : List (List Char)},
    replaceVPNRouteLoop old new routes replaced out = some (result, flag) →
    (replaced = true → new ∈ out) → (flag = true → new ∈ result) ∧
      (x ≠ new → (x ∈ result ↔ x ∈ out ∨ x ∈ routeTexts routes ∧ x ≠ old))
  | [], _, _, _, _, done, kept => by
    cases done
    exact ⟨kept, fun _ => by simp [routeTexts]⟩
  | r :: routes, replaced, flag, out, result, done, kept => by
    rw [replaceVPNRouteLoop] at done
    split at done
    · cases done
    · next p parsed =>
      rw [mem_routeTexts_cons parsed]
      split at done
      · next own =>
        obtain ⟨put, members⟩ := replaceVPNRouteLoop_eq_some done (by grind)
        refine ⟨put, fun other => ?_⟩
        rw [members other, own]
        grind
      · next other =>
        obtain ⟨put, members⟩ := replaceVPNRouteLoop_eq_some done (by grind)
        refine ⟨put, fun other => ?_⟩
        rw [members other]
        grind

/-- **Exchanged routes.** The old prefix goes and the new one comes; all others stay. -/
theorem mem_replaceVPNRoute {old new : String} {routes routes' : List String}
    (canonical : Canonical old.toList) (canonical' : Canonical new.toList)
    (done : replaceVPNRoute routes old new = some routes') :
    x ∈ routeTexts routes' ↔ x = new.toList ∨ x ∈ routeTexts routes ∧ x ≠ old.toList := by
  obtain ⟨p, parsed, same⟩ := canonical
  obtain ⟨q, parsed', same'⟩ := canonical'
  rw [replaceVPNRoute, parsed, parsed'] at done
  simp only [same, same'] at done
  split at done
  · cases done
  · next out replaced looped =>
    obtain ⟨texts, normal, rfl⟩ := Option.map_eq_some_iff.mp done
    have members {x} : x ∈ (if replaced then out else out ++ [new.toList]) ↔
        x = new.toList ∨ x ∈ routeTexts routes ∧ x ≠ old.toList := by
      have spec := replaceVPNRouteLoop_eq_some (x := x) looped nofun
      grind
    have proper {x} (listed : x ∈ if replaced then out else out ++ [new.toList]) :
        Canonical x := by
      rcases members.mp listed with rfl | ⟨old, _⟩
      · exact ⟨q, parsed', same'⟩
      · exact canonical_of_mem old
    have kept {x} := mem_normalizeRouteLoop (x := x) (fun _ => proper) normal
    rw [routeTexts_ofList fun t listed => proper ((kept.mp listed).resolve_left nofun), kept,
      members]
    simp

end

/-! ## Completing nodes -/

/-- The nodes that lack something completed, and whether there was one. -/
def Mesh.fill (complete : Node → Option Node) (m : Mesh) : Mesh × Bool :=
  ({ m with nodes := m.nodes.map fun n => (complete n).getD n },
    m.nodes.any fun n => (complete n).isSome)

/-- The routes of a node without routes: its own VPN prefix. -/
def Node.defaultRoutes (n : Node) : Option Node :=
  if n.routes ≠ [] then none
  else (vpnPrefixFromAddress n.address).map fun pfx => { n with routes := [pfx] }

def ensureDefaultRoutes (m : Mesh) : Mesh × Bool :=
  m.fill Node.defaultRoutes

section

variable {complete : Node → Option Node} {m : Mesh}

theorem Mesh.fill_eq_self (nothing : (m.fill complete).2 = false) : (m.fill complete).1 = m := by
  have each : ∀ n ∈ m.nodes, (complete n).getD n = n := by
    intro n listed
    rw [Mesh.fill, List.any_eq_false] at nothing
    rw [Option.not_isSome_iff_eq_none.mp (nothing n listed), Option.getD_none]
  rw [Mesh.fill, List.map_congr_left each, List.map_id']

end

end Core
