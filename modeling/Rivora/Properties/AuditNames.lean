import Mathlib
import Rivora.Api.Auth

/-! The names under which the keys of the API are audited. -/

namespace Rivora.Api

open Text

/-- The entry that decides under which name its key is audited: no later entry has the same key. -/
def Decides (creds : List Credential) (c : Credential) : Prop :=
  ∃ before after, creds = before ++ c :: after ∧ ∀ d ∈ after, d.key ≠ c.key

/-- No two keys are audited under one name of those that the check for names used twice lets pass. -/
def NamedApart (creds : List Credential) : Prop :=
  ∀ c d, Decides creds c → Decides creds d → c.key ≠ d.key → looksPlaced c.name = true → c.name ≠ d.name

section Names

variable {creds : List Credential}

/-- An entry that decides is one of the list. -/
theorem Decides.mem {c : Credential} (last : Decides creds c) : c ∈ creds := by
  obtain ⟨before, after, rfl, -⟩ := last
  simp

/-- The check for names used twice leaves only names that look like one made from a place. -/
theorem checkNames_pairwise {names : List String} (checked : checkNames names creds = .ok ()) :
    (∀ c ∈ creds, c.name ∈ names → looksPlaced c.name = true) ∧
      creds.Pairwise fun c d => c.name = d.name → looksPlaced c.name = true := by
  -- The names seen so far grow with every entry that is checked.
  induction creds generalizing names with
  | nil => exact ⟨by simp, .nil⟩
  | cons c rest ih =>
    rw [checkNames] at checked
    split at checked
    · cases checked
    · rename_i fresh
      obtain ⟨later, apart⟩ := ih checked
      constructor
      · intro d member known
        obtain rfl | behind := List.mem_cons.mp member
        · simpa [known] using fresh
        · exact later d behind (List.mem_cons_of_mem _ known)
      · refine List.pairwise_cons.mpr ⟨fun d behind same => ?_, apart⟩
        rw [same]
        exact later d behind (by simp [same])

/-- Two entries of a checked list that share a name share one that looks like a place. -/
theorem looksPlaced_of_shared (checked : checkNames [] creds = .ok ()) {c d : Credential} (first : c ∈ creds)
    (second : d ∈ creds) (different : c ≠ d) (same : c.name = d.name) : looksPlaced c.name = true := by
  -- The relation between two entries is symmetric, so their order in the list does not matter.
  have apart : creds.Pairwise fun c d => c.name = d.name → looksPlaced c.name = true := (checkNames_pairwise checked).2
  have : Std.Symm fun c d : Credential => c.name = d.name → looksPlaced c.name = true :=
    ⟨fun _ _ shared back => back ▸ shared back.symm⟩
  exact apart.forall first second different same

/-- A token is audited under the name of the entry that decides, if one has it as its key. -/
theorem matchCred_cases (token : String) (creds : List Credential) :
    (∃ c, Decides creds c ∧ c.key = token ∧ matchCred token creds = (c.name, true)) ∨
      (∀ c ∈ creds, c.key ≠ token) ∧ (matchCred token creds).2 = false := by
  -- The last key that matches decides, so the list is read from its end.
  induction creds using List.reverseRecOn with
  | nil => exact .inr ⟨by simp, rfl⟩
  | append_singleton rest c ih =>
    have last : matchCred token (rest ++ [c]) =
        if token = c.key then (c.name, true) else matchCred token rest := by simp [matchCred]
    rw [last]
    by_cases same : token = c.key
    · exact .inl ⟨c, ⟨rest, [], rfl, by simp⟩, same.symm, if_pos same⟩
    · rw [if_neg same]
      obtain ⟨d, ⟨before, after, rfl, later⟩, equal, found⟩ | ⟨absent, miss⟩ := ih
      · refine .inl ⟨d, ⟨before, after ++ [c], by simp, fun e member => ?_⟩, equal, found⟩
        obtain earlier | here := List.mem_append.mp member
        · exact later e earlier
        · cases List.mem_singleton.mp here
          exact fun clash => same (equal ▸ clash.symm)
      · refine .inr ⟨fun d member => ?_, miss⟩
        obtain earlier | here := List.mem_append.mp member
        · exact absent d earlier
        · cases List.mem_singleton.mp here
          exact fun equal => same equal.symm

/-- The key of an entry that decides is audited under the name of the entry. -/
theorem matchCred_of_decides {c : Credential} (last : Decides creds c) :
    matchCred c.key creds = (c.name, true) := by
  obtain ⟨before, after, rfl, later⟩ := last
  have kept : ∀ (after : List Credential) (found : String × Bool), (∀ d ∈ after, d.key ≠ c.key) →
      after.foldl (fun found d => if c.key = d.key then (d.name, true) else found) found = found := by
    intro after found later
    induction after with
    | nil => rfl
    | cons d rest ih =>
      rw [List.foldl_cons, if_neg (later d List.mem_cons_self).symm]
      exact ih fun e member => later e (List.mem_cons_of_mem _ member)
  rw [matchCred, List.foldl_append, List.foldl_cons, if_pos rfl, kept after _ later]

/-- The header that carries a token. -/
theorem bearerToken_header (token : String) : bearerToken ("Bearer " ++ token) = some token := by
  have head : "Bearer ".toList.isPrefixOf ("Bearer " ++ token).toList = true := by
    rw [List.isPrefixOf_iff_prefix, String.toList_append]
    exact List.prefix_append _ _
  rw [bearerToken, if_pos head, String.toList_append, List.drop_left' (by rfl), String.ofList_toList]

end Names

/-- A request that no verified certificate stands behind. -/
def Server.ByKey (s : Server) (r : Request) : Prop := s.mtls = false ∨ r.verified = none

theorem identify_of_byKey {s : Server} {r : Request} (keyed : s.ByKey r) {token : String}
    (bearer : bearerToken r.authorization = some token) (admin readOnly : List Credential) :
    s.identify r admin readOnly =
      if (matchCred token admin).2 then some ⟨(matchCred token admin).1, .admin⟩
      else if (matchCred token readOnly).2 then some ⟨(matchCred token readOnly).1, .readOnly⟩
      else none := by
  unfold Server.identify
  obtain off | absent := keyed
  · rw [off]
    simp only [bearer]
  · rw [absent]
    cases s.mtls <;> simp only [bearer]

theorem validateKeys_ok {admin readOnly : String} (accepted : validateKeys admin readOnly = .ok ()) :
    checkNames [] (credentials admin ++ credentials readOnly) = .ok () ∧
      ∀ c ∈ credentials readOnly, ∀ d ∈ credentials admin, d.key ≠ c.key := by
  unfold validateKeys at accepted
  split at accepted
  · cases accepted
  · rename_i ac admins
    split at accepted
    · cases accepted
    · rename_i rc readers
      split at accepted
      · cases accepted
      · rename_i names
        have keys : credentials admin = ac ∧ credentials readOnly = rc := by
          simp [credentials, admins, readers, Except.toOption]
        dsimp only at accepted
        repeat (split at accepted; · cases accepted)
        rename_i disjoint
        rw [keys.1, keys.2]
        refine ⟨names, fun c reader d admin same => disjoint ?_⟩
        rw [parseKeys, parseKeys, keys.1, keys.2, List.any_map, List.any_eq_true]
        exact ⟨c, reader, by simpa using ⟨d, admin, same⟩⟩

/--
Of accepted settings, two admin keys are always audited under two names exactly when no two entries share a name of
the kind that is not checked, and a read-only key never has the admin role.
-/
theorem accepted_keys_are_told_apart (admin readOnly : String) (accepted : validateKeys admin readOnly = .ok ())
    (s : Server) :
    ((∀ c ∈ credentials admin, ∀ d ∈ credentials admin, c.key ≠ d.key →
      ∀ r r', s.ByKey r → s.ByKey r' → bearerToken r.authorization = some c.key →
        bearerToken r'.authorization = some d.key →
        ∃ who who', s.identify r (credentials admin) (credentials readOnly) = some ⟨who, .admin⟩ ∧
          s.identify r' (credentials admin) (credentials readOnly) = some ⟨who', .admin⟩ ∧ who ≠ who') ↔
        NamedApart (credentials admin)) ∧
      ∀ c ∈ credentials readOnly, ∀ r, s.ByKey r → bearerToken r.authorization = some c.key →
        ∀ who, s.identify r (credentials admin) (credentials readOnly) ≠ some ⟨who, .admin⟩ := by
  obtain ⟨names, disjoint⟩ := validateKeys_ok accepted
  refine ⟨⟨fun told c d first second different _ same => ?_, ?_⟩, ?_⟩
  · -- The two keys that share a name, each sent in a request of its own.
    have sent : ∀ x, Decides (credentials admin) x →
        s.identify ⟨none, "Bearer " ++ x.key⟩ (credentials admin) (credentials readOnly) = some ⟨x.name, .admin⟩ := by
      intro x decides
      rw [@identify_of_byKey s ⟨none, "Bearer " ++ x.key⟩ (.inr rfl) x.key (bearerToken_header x.key),
        matchCred_of_decides decides, if_pos rfl]
    obtain ⟨who, who', left, right, unequal⟩ := told c first.mem d second.mem different
      ⟨none, "Bearer " ++ c.key⟩ ⟨none, "Bearer " ++ d.key⟩ (.inr rfl) (.inr rfl)
      (bearerToken_header c.key) (bearerToken_header d.key)
    rw [sent c first] at left
    rw [sent d second] at right
    cases left
    cases right
    exact unequal same
  · intro apart c member d member' different r r' keyed keyed' bearer bearer'
    -- Each token is found under the name of the entry that decides.
    obtain ⟨x, decides, first, matched⟩ := (matchCred_cases c.key (credentials admin)).resolve_right
      fun miss => miss.1 c member rfl
    obtain ⟨y, decides', second, matched'⟩ := (matchCred_cases d.key (credentials admin)).resolve_right
      fun miss => miss.1 d member' rfl
    have keys : x.key ≠ y.key := by rwa [first, second]
    refine ⟨x.name, y.name, ?_, ?_, fun same => ?_⟩
    · rw [identify_of_byKey keyed bearer, matched, if_pos rfl]
    · rw [identify_of_byKey keyed' bearer', matched', if_pos rfl]
    · have looks := looksPlaced_of_shared names (List.mem_append_left _ decides.mem)
        (List.mem_append_left _ decides'.mem) (fun equal => keys (congrArg Credential.key equal)) same
      exact apart x y decides decides' keys looks same
  · intro c member r keyed bearer who
    obtain ⟨d, decides, same, -⟩ | ⟨-, miss⟩ := matchCred_cases c.key (credentials admin)
    · exact absurd same (disjoint c member d decides.mem)
    · rw [identify_of_byKey keyed bearer, miss, if_neg Bool.false_ne_true]
      split <;> simp

/-- Bare and named keys, an empty entry and a key to read with. -/
theorem mixed_keys_are_told_apart :
    ∃ who who', Server.identify ⟨false, []⟩ ⟨none, "Bearer one"⟩ (credentials "id:alice=one, two,,id:bob=three")
        (credentials "four") = some ⟨who, .admin⟩ ∧
      Server.identify ⟨false, []⟩ ⟨none, "Bearer two"⟩ (credentials "id:alice=one, two,,id:bob=three")
        (credentials "four") = some ⟨who', .admin⟩ ∧ who ≠ who' :=
  (accepted_keys_are_told_apart "id:alice=one, two,,id:bob=three" "four" (by decide +kernel) ⟨false, []⟩).1.mpr
    (fun _ _ first second different _ same => different (congrArg Credential.key
      (List.inj_on_of_nodup_map (by decide +kernel) first.mem second.mem same)))
    ⟨"alice", "one"⟩ (by decide +kernel) ⟨"key-2", "two"⟩
    (by decide +kernel) (by decide) ⟨none, "Bearer one"⟩ ⟨none, "Bearer two"⟩ (.inl rfl) (.inl rfl)
    (by decide +kernel) (by decide +kernel)

/-- A chosen name and a place that are the same name, for two secrets. -/
theorem chosen_name_meets_place :
    validateKeys "id:key-2=first,second" "" = .ok () ∧
      Server.identify ⟨false, []⟩ ⟨none, "Bearer first"⟩ (credentials "id:key-2=first,second") (credentials "") =
        some ⟨"key-2", .admin⟩ ∧
      Server.identify ⟨false, []⟩ ⟨none, "Bearer second"⟩ (credentials "id:key-2=first,second") (credentials "") =
        some ⟨"key-2", .admin⟩ := by
  decide +kernel

end Rivora.Api
