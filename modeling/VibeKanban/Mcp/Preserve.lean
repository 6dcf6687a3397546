import VibeKanban.Mcp.RoundTrip
import VibeKanban.Mcp.Shared

/-!
# What `preserve_gateway_capability` restores

The placeholder that a client was shown for a credential is replaced again, where an entry is stored
under the name that is written or with its URL.

* `hasPlaceholder_preserve`: when one is left.
-/

namespace VibeKanban.Mcp

open Lib (JsonValue Keyed)
open Lib.Members Option List

variable {settings : Settings} {entry entry' stored value : JsonValue}
  {headers members current : List (String × JsonValue)} {key name url envName : String}
  {f : List (String × JsonValue) → List (String × JsonValue)} {key' : String}

/-! ## Members of an object that is changed -/

theorem objectMembers_object :
    objectMembers (.object members) key = ((members.lookup key).bind JsonValue.asObject).getD [] :=
  rfl

theorem objectMembers_modifyObject_self (hf : f [] = []) :
    objectMembers (modifyObject key f entry) key = f (objectMembers entry key) := by
  cases entry with
  | object members =>
    rw [modifyObject, objectMembers_object, objectMembers_object, lookup_map_of_fst]
    · cases members.lookup key with
      | none => exact hf.symm
      | some v => cases v <;> simp [JsonValue.asObject, hf]
    · intro m
      split
      · split <;> rfl
      · rfl
  | _ => exact hf.symm

theorem objectMembers_modifyObject_other (hne : key' ≠ key) :
    objectMembers (modifyObject key f entry) key' = objectMembers entry key' := by
  cases entry with
  | object members =>
    rw [modifyObject, objectMembers_object, objectMembers_object, lookup_map_of_fst]
    · simp [hne]
    · intro m
      split
      · split <;> rfl
      · rfl
  | _ => rfl

/-! ## Where the placeholder stands -/

/-- The placeholder stands in the place of a credential. -/
def HasPlaceholder (entry : JsonValue) : Prop :=
  ∃ key ∈ ["headers", "http_headers"], ∃ header ∈ objectMembers entry key, isRedacted header = true
  deriving Decidable

/-- No stored entry has the placeholder for its credential. -/
def Clean (servers : List (String × JsonValue)) : Prop :=
  ∀ server ∈ servers, ¬ HasPlaceholder server.2
  deriving Decidable

variable {header : String × JsonValue} {routes : RuntimeRoutes}

theorem isRedacted_iff :
    isRedacted header = true ↔ isAuthorization header.1 = true ∧ header.2 = placeholder := by
  simp [isRedacted]

theorem isRedacted_replaced (hvalue : value ≠ placeholder)
    (hm : header ∈ replaceHeaders isRedacted value headers) : isRedacted header = false := by
  obtain ⟨old, -, rfl⟩ := mem_map.1 hm
  split_ifs with hr
  · simp [isRedacted, hvalue]
  · simpa using hr

theorem not_hasPlaceholder_restoreHeaders (hvalue : value ≠ placeholder) :
    ¬ HasPlaceholder (restoreHeaders entry value) := by
  rintro ⟨key, hkey, header, hm, hr⟩
  have hreplaced : header ∈ replaceHeaders isRedacted value (objectMembers entry key) := by
    simp only [mem_cons, not_mem_nil, or_false] at hkey
    unfold restoreHeaders at hm
    rcases hkey with rfl | rfl
    · rwa [objectMembers_modifyObject_other (by decide), objectMembers_modifyObject_self rfl] at hm
    · rwa [objectMembers_modifyObject_self rfl, objectMembers_modifyObject_other (by decide)] at hm
  rw [isRedacted_replaced hvalue hreplaced] at hr
  cases hr

/-! ## One header is given back to the environment -/

theorem objectMembers_set_self {ms : List (String × JsonValue)} :
    objectMembers ((JsonValue.object members).set key (.object ms)) key = ms := by
  rw [JsonValue.set, objectMembers_object, JsonValue.lookup_insert_self]
  rfl

theorem objectMembers_set_other {v : JsonValue} (hne : key' ≠ key) :
    objectMembers (entry.set key v) key' = objectMembers entry key' := by
  cases entry with
  | object members =>
    rw [JsonValue.set, objectMembers_object, objectMembers_object,
      JsonValue.lookup_insert_other hne]
  | _ => rfl

theorem exists_object_of_mem (hm : header ∈ objectMembers entry key) :
    ∃ members, entry = .object members := by
  cases entry with
  | object members => exact ⟨members, rfl⟩
  | _ => simp [objectMembers, JsonValue.get, JsonValue.asObject] at hm

theorem redactedName_eq_some (h : redactedName entry = some name) :
    ∃ header ∈ objectMembers entry "http_headers", isRedacted header = true ∧ header.1 = name := by
  obtain ⟨header, hfind, rfl⟩ := map_eq_some_iff.1 h
  exact ⟨header, mem_of_find?_eq_some hfind, find?_some hfind, rfl⟩

/-- The one header that a variable takes the place of is the only placeholder. -/
def OnlyRedacted (entry : JsonValue) : Prop :=
  ∀ key ∈ ["headers", "http_headers"], ∀ header ∈ objectMembers entry key,
    isRedacted header = true → key = "http_headers" ∧ redactedName entry = some header.1

section

variable (hname : redactedName entry = some name)
  (h : restoreVariable entry name envName = some entry')
include hname h

theorem restoreVariable_objectMembers :
    objectMembers entry' "headers" = objectMembers entry "headers" ∧
    objectMembers entry' "http_headers" =
      (objectMembers entry "http_headers").filter fun header => header.1 ≠ name := by
  obtain ⟨header, hm, -⟩ := redactedName_eq_some hname
  obtain ⟨members, rfl⟩ := exists_object_of_mem hm
  have hcases : ∃ v, entry' = ((JsonValue.object members).set "http_headers" (.object
      ((objectMembers (.object members) "http_headers").filter fun header =>
        header.1 ≠ name))).set "env_http_headers" v := by
    unfold restoreVariable at h
    simp only at h
    split at h
    · exact ⟨_, (some.inj h).symm⟩
    · exact ⟨_, (some.inj h).symm⟩
    · cases h
  obtain ⟨v, rfl⟩ := hcases
  rw [objectMembers_set_other (by decide), objectMembers_set_other (by decide),
    objectMembers_set_other (by decide), objectMembers_set_self]
  exact ⟨rfl, rfl⟩

theorem hasPlaceholder_restoreVariable : HasPlaceholder entry' ↔ ¬ OnlyRedacted entry := by
  obtain ⟨hheaders, hhttp⟩ := restoreVariable_objectMembers hname h
  constructor
  · rintro ⟨key, hkey, header, hm, hr⟩ honly
    simp only [mem_cons, not_mem_nil, or_false] at hkey
    rcases hkey with rfl | rfl
    · rw [hheaders] at hm
      exact absurd (honly _ (by decide) header hm hr).1 (by decide)
    · rw [hhttp, mem_filter] at hm
      have hsome := (honly _ (by decide) header hm.1 hr).2
      rw [hname, some.injEq] at hsome
      simp [hsome] at hm
  · intro hnot
    unfold OnlyRedacted at hnot
    push Not at hnot
    obtain ⟨key, hkey, header, hm, hr, hother⟩ := hnot
    refine ⟨key, hkey, header, ?_, hr⟩
    simp only [mem_cons, not_mem_nil, or_false] at hkey
    rcases hkey with rfl | rfl
    · rwa [hheaders]
    · rw [hhttp, mem_filter]
      refine ⟨hm, ?_⟩
      have hne : header.1 ≠ name := by
        intro heq
        exact hother rfl (by rw [hname, heq])
      simpa using hne

end

/-! ## The stored entry -/

theorem storedEntry_mem (h : storedEntry settings current name url = some stored) :
    ∃ server ∈ current, server.2 = stored := by
  rcases or_eq_some_iff.1 h with h | ⟨-, h⟩
  · exact ⟨_, mem_of_lookup h, rfl⟩
  · obtain ⟨server, hm, heq⟩ := mem_map.1 (mem_of_find?_eq_some h)
    exact ⟨server, hm, heq⟩

theorem mem_normalizeStringMap {keys : List String}
    (hm : header ∈ normalizeStringMap members keys) :
    ∃ key ∈ keys, header ∈ objectMembers (.object members) key := by
  unfold normalizeStringMap at hm
  split at hm
  · next map hmap =>
    obtain ⟨key, hkey, hfound⟩ := exists_of_findSome?_eq_some hmap
    refine ⟨key, hkey, ?_⟩
    rw [objectMembers_object, hfound]
    exact mem_of_mem_filter hm
  · simp at hm

/-- A header of an entry: one of its own, or one that it takes from the environment. -/
def IsHeader (entry : JsonValue) (name : String) (value : JsonValue) : Prop :=
  (∃ key ∈ ["headers", "http_headers"], (name, value) ∈ objectMembers entry key) ∨
    ∃ envName, value = .string (envTemplate envName) ∧
      (name, .string envName) ∈ objectMembers entry "env_http_headers"

theorem mem_insertEnvHeader {envHeader : String × JsonValue}
    (hm : header ∈ insertEnvHeader headers envHeader) :
    header ∈ headers ∨ ∃ envName, envHeader.2 = .string envName ∧
      header = (envHeader.1, .string (envTemplate envName)) := by
  unfold insertEnvHeader at hm
  split at hm
  · next envName henv =>
    split at hm
    · rcases mem_append.1 hm with hm | hm
      · exact .inl hm
      · exact .inr ⟨envName, JsonValue.asStr_eq_some.1 henv, mem_singleton.1 hm⟩
    · exact .inl hm
  · exact .inl hm

theorem isHeader_of_normalizeHttpHeaders (hm : header ∈ normalizeHttpHeaders members) :
    IsHeader (.object members) header.1 header.2 := by
  have hfold : ∀ header ∈ normalizeHttpHeaders members,
      header ∈ normalizeStringMap members ["headers", "http_headers"] ∨
        ∃ envName, header.2 = .string (envTemplate envName) ∧
          (header.1, .string envName) ∈ objectMembers (.object members) "env_http_headers" := by
    refine foldlRecOn (motive := fun headers => ∀ header ∈ headers,
      header ∈ normalizeStringMap members ["headers", "http_headers"] ∨
        ∃ envName, header.2 = .string (envTemplate envName) ∧
          (header.1, .string envName) ∈ objectMembers (.object members) "env_http_headers")
      _ _ (fun _ hm => .inl hm) ?_
    intro base hbase envHeader henvHeader header hm
    rcases mem_insertEnvHeader hm with hm | ⟨envName, hvalue, rfl⟩
    · exact hbase header hm
    · refine .inr ⟨envName, rfl, ?_⟩
      rw [← hvalue]
      exact henvHeader
  exact (hfold header hm).imp mem_normalizeStringMap id

theorem envTemplate_ne : JsonValue.string (envTemplate envName) ≠ placeholder := by
  intro h
  have hlist := congrArg String.toList (JsonValue.string.inj h)
  rw [envTemplate, String.toList_append, String.toList_append] at hlist
  have hhead := congrArg head? hlist
  simp at hhead

theorem isHeader_of_canonical
    (hm : header ∈ objectMembers (canonicalDefinition routes entry).value "headers") :
    IsHeader entry header.1 header.2 := by
  have hunknown (hm : header ∈ objectMembers entry "headers") :
      IsHeader entry header.1 header.2 := .inl ⟨_, by decide, hm⟩
  have hcompact {entries : List (String × JsonValue)} (hk : Keyed Prod.fst entries)
      (hm : header ∈ objectMembers (.object (compact entries)) "headers") :
      ∃ headers, entries.lookup "headers" = some (.object headers) ∧ header ∈ headers := by
    rw [objectMembers_object, lookup_compact hk] at hm
    cases hl : entries.lookup "headers" with
    | none => simp [hl] at hm
    | some v =>
      by_cases hn : nonEmpty v = true
      · rw [hl, filter_some_pos hn] at hm
        cases v with
        | object headers => exact ⟨headers, rfl, hm⟩
        | _ => simp [JsonValue.asObject] at hm
      · rw [hl, filter_some_neg (Bool.not_eq_true _ ▸ hn)] at hm
        simp at hm
  cases entry with
  | object obj =>
    simp only [canonicalDefinition] at hm
    split at hm
    · exact hunknown hm
    · split at hm
      · obtain ⟨headers, hl, -⟩ := hcompact keyed_stdioForm hm
        simp [stdioForm, lookup] at hl
      · split at hm
        · obtain ⟨headers, hl, -⟩ := hcompact keyed_stdioForm hm
          simp [stdioForm, lookup] at hl
        · split at hm
          · obtain ⟨headers, hl, hmem⟩ := hcompact keyed_httpForm hm
            have hheaders : headers = normalizeHttpHeaders obj := by
              simpa [httpForm, lookup] using hl.symm
            rw [hheaders] at hmem
            exact isHeader_of_normalizeHttpHeaders hmem
          · exact hunknown hm
  | _ => exact hunknown hm

theorem not_isRedacted_of_not_hasPlaceholder (h : ¬ HasPlaceholder entry)
    (hm : header ∈ objectMembers (canonicalDefinition routes entry).value "headers") :
    isRedacted header = false := by
  rw [← Bool.not_eq_true]
  intro hr
  rcases isHeader_of_canonical hm with ⟨key, hkey, hmem⟩ | ⟨envName, henv, -⟩
  · exact h ⟨key, hkey, header, hmem, hr⟩
  · exact envTemplate_ne (henv.symm.trans (isRedacted_iff.1 hr).2)

theorem storedAuthorization_ne (h : ¬ HasPlaceholder stored)
    (hv : storedAuthorization settings stored = some value) : value ≠ placeholder := by
  obtain ⟨header, hfind, rfl⟩ := map_eq_some_iff.1 hv
  have hr := not_isRedacted_of_not_hasPlaceholder h (mem_of_find?_eq_some hfind)
  have hauth : isAuthorization header.1 = true := by simpa using find?_some hfind
  intro heq
  rw [isRedacted_iff.2 ⟨hauth, heq⟩] at hr
  cases hr

/-- The stored entry has what the placeholders of the entry stand for: a variable for the only one
of them, or else a credential of its own. -/
def Restorable (settings : Settings) (current : List (String × JsonValue)) (name : String)
    (entry : JsonValue) : Prop :=
  ∃ url stored, gatewayUrl (canonicalDefinition settings.routes entry) = some url ∧
    storedEntry settings current name url = some stored ∧
    if (envAuthorization stored).isSome = true ∧ (redactedName entry).isSome = true then
      OnlyRedacted entry
    else (storedAuthorization settings stored).isSome = true

/-- `preserve_gateway_capability` leaves the placeholder exactly where nothing is stored for it. -/
theorem hasPlaceholder_preserve (hclean : Clean current)
    (h : preserveGatewayCapability settings current name entry = some entry') :
    HasPlaceholder entry' ↔ HasPlaceholder entry ∧ ¬ Restorable settings current name entry := by
  unfold preserveGatewayCapability at h
  cases hurl : gatewayUrl (canonicalDefinition settings.routes entry) with
  | none =>
    have hnot : ¬ Restorable settings current name entry := by
      rintro ⟨url, stored, hsome, -⟩
      rw [hurl] at hsome
      cases hsome
    simp only [hurl, some.injEq] at h
    rw [← h, and_iff_left hnot]
  | some url =>
    simp only [hurl] at h
    cases hstored : storedEntry settings current name url with
    | none =>
      have hnot : ¬ Restorable settings current name entry := by
        rintro ⟨url', stored, hsome, hentry, -⟩
        rw [hurl, some.injEq] at hsome
        rw [← hsome, hstored] at hentry
        cases hentry
      simp only [hstored, some.injEq] at h
      rw [← h, and_iff_left hnot]
    | some stored =>
      simp only [hstored] at h
      obtain ⟨server, hserver, hvalue⟩ := storedEntry_mem hstored
      have hcleanStored : ¬ HasPlaceholder stored := hvalue ▸ hclean server hserver
      have hiff : Restorable settings current name entry ↔
          if (envAuthorization stored).isSome = true ∧ (redactedName entry).isSome = true then
            OnlyRedacted entry
          else (storedAuthorization settings stored).isSome = true := by
        constructor
        · rintro ⟨url', stored', hsome, hentry, hcond⟩
          rw [hurl, some.injEq] at hsome
          rw [← hsome, hstored, some.injEq] at hentry
          rwa [hentry]
        · exact fun hcond => ⟨url, stored, hurl, hstored, hcond⟩
      rw [hiff]
      by_cases hboth : (envAuthorization stored).isSome = true ∧ (redactedName entry).isSome = true
      · obtain ⟨envName, henv⟩ := isSome_iff_exists.1 hboth.1
        obtain ⟨name', hname⟩ := isSome_iff_exists.1 hboth.2
        simp only [henv, hname] at h
        rw [if_pos hboth, hasPlaceholder_restoreVariable hname h]
        obtain ⟨header, hm, hr, -⟩ := redactedName_eq_some hname
        exact (and_iff_right ⟨_, by decide, header, hm, hr⟩).symm
      · rw [if_neg hboth]
        have hrest : (storedAuthorization settings stored).elim (some entry)
            (fun value => some (restoreHeaders entry value)) = some entry' := by
          cases henv : envAuthorization stored with
          | none =>
            simp only [henv] at h
            cases hauth : storedAuthorization settings stored <;> simp only [hauth] at h <;> exact h
          | some envName =>
            cases hname : redactedName entry with
            | none =>
              simp only [henv, hname] at h
              cases hauth : storedAuthorization settings stored <;>
                simp only [hauth] at h <;> exact h
            | some name' => exact absurd (by simp [henv, hname]) hboth
        cases hauth : storedAuthorization settings stored with
        | none =>
          simp only [hauth, elim_none, some.injEq] at hrest
          rw [← hrest]
          simp
        | some value =>
          simp only [hauth, elim_some, some.injEq] at hrest
          have hnot : ¬ HasPlaceholder entry' := by
            rw [← hrest]
            exact not_hasPlaceholder_restoreHeaders (storedAuthorization_ne hcleanStored hauth)
          simp [hnot]

end VibeKanban.Mcp
