/- What users may do by default (`engine_types.rs`). -/

import CloseClaw.Permission.ApprovalFlow
import CloseClaw.Permission.RuleFile

namespace CloseClaw.Permission

open Lib Lib.Serde Defaults

inductive Dimension where
  | fileRead
  | fileWrite
  | exec
  | network
  | interAgent
  | config
  | toolCall
  | message

def Dimension.keys : Dimension → List String
  | .fileRead => ["file_read", "file"]
  | .fileWrite => ["file_write", "file"]
  | .exec => ["exec", "command"]
  | .network => ["network"]
  | .interAgent => ["inter_agent"]
  | .config => ["config"]
  | .toolCall => ["tool_call"]
  | .message => ["message"]

def Defaults.get (d : Defaults) : Dimension → Effect
  | .fileRead => d.fileRead
  | .fileWrite => d.fileWrite
  | .exec => d.exec
  | .network => d.network
  | .interAgent => d.interAgent
  | .config => d.config
  | .toolCall => d.toolCall
  | .message => d.message

inductive RuleSource where
  | json (entries : List (String × Json))
  | default
  | registration (registry : UserRegistry) (userId channel : String) (initialPermissions : List InitialPermissionSet)

namespace RuleSource

def userDefaults : RuleSource → Option Defaults
  | .json entries => (RuleFile.RuleSet.serde.de (.obj entries)).map (·.userDefaults)
  | .default => some RuleSet.default.userDefaults
  | .registration registry userId channel initialPermissions =>
    (registerUser registry userId channel initialPermissions).map (·.1.userDefaults)

def userMap (entries : List (String × Json)) : Option (List (String × Json)) :=
  match (entries.lookup "user_defaults").map Json.toValue with
  | some (.obj map) => some map
  | _ => none

def Grants (d : Dimension) : RuleSource → Prop
  | .json entries => ∃ map, userMap entries = some map ∧
    ∃ key ∈ d.keys, ∃ v, map.lookup key = some v ∧ Effect.serde.de v = some .allow
  | _ => False

def MessageGiven : RuleSource → Prop
  | .json entries => entries.lookup "user_defaults" = none ∨ ∃ map, userMap entries = some map ∧
    (map.lookup "message").isSome = true
  | _ => False

end RuleSource

namespace Defaults

def fallback : Dimension → Effect
  | .message => .allow
  | _ => .deny

theorem ofMap_get {map : List (String × Json)} {d : Defaults} (h : ofMap map = some d) (dim : Dimension) :
    effectOf map (fallback dim) dim.keys = some (d.get dim) := by
  simp only [ofMap, Option.bind_eq_bind, Option.bind_eq_some_iff] at h
  obtain ⟨r, hr, w, hw, e, he, n, hn, i, hi, c, hc, t, ht, m, hm, hd⟩ := h
  obtain rfl := Option.some.inj hd
  cases dim <;> assumption

theorem effectOf_allow {map : List (String × Json)} {d : Effect} {keys : List String}
    (h : effectOf map d keys = some .allow) :
    (∃ key ∈ keys, ∃ v, map.lookup key = some v ∧ Effect.serde.de v = some .allow) ∨
      d = .allow ∧ ∀ key ∈ keys, map.lookup key = none := by
  induction keys with
  | nil => exact .inr ⟨Option.some.inj h, by simp⟩
  | cons key keys ih =>
    rw [effectOf] at h
    cases hv : map.lookup key with
    | some v =>
      rw [hv] at h
      exact .inl ⟨key, by simp, v, hv, h⟩
    | none =>
      rw [hv] at h
      rcases ih h with ⟨key', hkey', hgiven⟩ | ⟨hd, hnone⟩
      · exact .inl ⟨key', List.mem_cons_of_mem _ hkey', hgiven⟩
      · refine .inr ⟨hd, ?_⟩
        intro key' hkey'
        rcases List.mem_cons.mp hkey' with rfl | hkey'
        · exact hv
        · exact hnone key' hkey'

end Defaults

open RuleSource

variable {entries : List (String × Json)} {d : Defaults}

theorem userDefaults_of_json (h : (json entries).userDefaults = some d) :
    (entries.lookup "user_defaults" = none ∧ d = .userDefaults) ∨
      ∃ map, userMap entries = some map ∧ ofMap map = some d := by
  obtain ⟨rs, hrs, rfl⟩ := Option.map_eq_some_iff.mp h
  obtain ⟨field, hfield, htable⟩ := RuleFile.userDefaults_of_de hrs
  have hlookup := lookup_of_entry hfield
  cases field with
  | none => exact .inl ⟨hlookup, (Option.some.inj htable).symm⟩
  | some j =>
    refine .inr ?_
    have hde : Defaults.de j = some rs.userDefaults := htable
    unfold Defaults.de at hde
    split at hde
    · next map hmap => exact ⟨map, by simp [userMap, hlookup, hmap], hde⟩
    · cases hde

theorem grants_iff_of_map {map : List (String × Json)} (hmap : userMap entries = some map) (hd : ofMap map = some d) :
    (∀ dim, d.get dim = .allow → (json entries).Grants dim) ↔ (map.lookup "message").isSome = true := by
  constructor
  · intro h
    by_contra hno
    have hnone : map.lookup "message" = none := Option.not_isSome_iff_eq_none.mp hno
    have hallow : d.get .message = .allow := by
      have hget := ofMap_get hd .message
      simp only [Dimension.keys, effectOf, hnone, fallback, Option.some.injEq] at hget
      exact hget.symm
    obtain ⟨map', hmap', key, hkey, v, hv, -⟩ := h .message hallow
    obtain rfl : key = "message" := by simpa [Dimension.keys] using hkey
    obtain rfl : map = map' := Option.some.inj (hmap.symm.trans hmap')
    rw [hnone] at hv
    cases hv
  · intro hmessage dim hallow
    have hget := ofMap_get hd dim
    rw [hallow] at hget
    rcases effectOf_allow hget with hgiven | ⟨hfallback, hnone⟩
    · exact ⟨map, hmap, hgiven⟩
    · cases dim with
      | message => simp [hnone "message" (by simp [Dimension.keys])] at hmessage
      | _ => cases hfallback

theorem registerUser_userDefaults {registry : UserRegistry} {userId channel : String}
    {initialPermissions : List InitialPermissionSet}
    (h : (registration registry userId channel initialPermissions).userDefaults = some d) : d = .default := by
  obtain ⟨made, hmade, rfl⟩ := Option.map_eq_some_iff.mp h
  unfold registerUser at hmade
  split at hmade
  · cases hmade
  · obtain rfl := Option.some.inj hmade
    rfl

theorem user_defaults_grant_only_what_is_given_iff (source : RuleSource) (d : Defaults)
    (h : source.userDefaults = some d) : (∀ dim, d.get dim = .allow → source.Grants dim) ↔ source.MessageGiven := by
  cases source with
  | json entries =>
    rcases userDefaults_of_json h with ⟨hnone, rfl⟩ | ⟨map, hmap, hd⟩
    · refine iff_of_true ?_ (.inl hnone)
      intro dim hallow
      cases dim <;> cases hallow
    · have hsome : entries.lookup "user_defaults" ≠ none := by
        intro hnone
        simp [userMap, hnone] at hmap
      rw [grants_iff_of_map hmap hd]
      simp [MessageGiven, hsome, hmap]
  | default =>
    obtain rfl : d = .default := (Option.some.inj h).symm
    exact iff_of_false (fun hall => hall .message rfl) id
  | registration =>
    obtain rfl := registerUser_userDefaults h
    exact iff_of_false (fun hall => hall .message rfl) id

def emptyFile : List (String × Json) := []

theorem user_defaults_of_an_empty_file : (json emptyFile).userDefaults = some .userDefaults ∧
      ∀ dim, userDefaults.get dim = .allow → (json emptyFile).Grants dim :=
  ⟨rfl, (user_defaults_grant_only_what_is_given_iff (.json emptyFile) .userDefaults rfl).mpr (.inl rfl)⟩

def noExec : List (String × Json) := [("user_defaults", .obj [("exec", .str "deny")])]

theorem messages_are_allowed_unasked : (json noExec).userDefaults.map (·.get .message) = some .allow ∧
      ¬ (json noExec).Grants .message ∧
      RuleSource.default.userDefaults.map (·.get .message) = some .allow ∧
      (registration [] "u" "feishu" []).userDefaults.map (·.get .message) = some .allow := by
  refine ⟨rfl, ?_, rfl, rfl⟩
  intro h
  obtain ⟨map, hmap, key, hkey, v, hv, -⟩ := h
  obtain rfl : key = "message" := by simpa [Dimension.keys] using hkey
  obtain rfl : [("exec", Json.str "deny")] = map := Option.some.inj hmap
  cases hv

end CloseClaw.Permission
