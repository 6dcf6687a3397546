import VibeKanban.Delivery.Prompt
import VibeKanban.Lib.Except
import VibeKanban.Lib.Runs

/-!
# The store of trusted clients (`trusted-key-auth/src/trusted_keys.rs`)

`upsert_trusted_client` replaces the first client with the id or with the key. Where one client has
the id and another one the key, two clients then share one of them.

* `complete_of_reachable`: ids and keys are unique and removals complete, in runs without such an
  upsert.
-/

namespace VibeKanban.Relay

open Lib List
open Delivery (Text Uuid isWhitespace)

/-! ## Model -/

structure TrustedRelayClient where
  clientId : Uuid
  clientName : Text
  clientBrowser : Text
  clientOs : Text
  clientDevice : Text
  publicKeyB64 : Text
  deriving DecidableEq

variable {κ : Type} (parsePublicKeyBase64 : Text → Option κ)

/-- Lines 138-166. -/
def validateClient (client : TrustedRelayClient) : Except String Unit :=
  if client.clientName.all isWhitespace then .error "Trusted key file contains invalid client name"
  else if client.clientBrowser.all isWhitespace then
    .error "Trusted key file contains invalid client browser"
  else if client.clientOs.all isWhitespace then .error "Trusted key file contains invalid client OS"
  else if client.clientDevice.all isWhitespace then
    .error "Trusted key file contains invalid client device"
  else if parsePublicKeyBase64 client.publicKeyB64 = none then
    .error "Trusted key file contains invalid keys"
  else .ok ()

/-- `read_trusted_clients_file`: the clients that were written, checked again. -/
def readTrustedClientsFile (clients : List TrustedRelayClient) :
    Except String (List TrustedRelayClient) := do
  clients.forM (validateClient parsePublicKeyBase64)
  return clients

/-- Lines 28-52. -/
def upsertTrustedClient (file : List TrustedRelayClient) (client : TrustedRelayClient) :
    Except String (List TrustedRelayClient × Bool) := do
  validateClient parsePublicKeyBase64 client
  let clients ← readTrustedClientsFile parsePublicKeyBase64 file
  match clients.findIdx? fun existing => existing.clientId = client.clientId ||
    existing.publicKeyB64 = client.publicKeyB64 with
  | some i => return (clients.set i client, false)
  | none => return (clients ++ [client], true)

/-- Lines 77-93. -/
def removeTrustedClient (file : List TrustedRelayClient) (clientId : Uuid) :
    Except String (List TrustedRelayClient × Bool) := do
  let clients ← readTrustedClientsFile parsePublicKeyBase64 file
  let kept := clients.filter (·.clientId ≠ clientId)
  return (kept, kept.length ≠ clients.length)

inductive Operation where
  | upsert (client : TrustedRelayClient)
  | remove (clientId : Uuid)

/-- The store after an operation that succeeds; one that fails leaves it alone. -/
def storeStep (clients : List TrustedRelayClient) (a : Operation) :
    Option (List TrustedRelayClient) :=
  match a with
  | .upsert client => match upsertTrustedClient parsePublicKeyBase64 clients client with
    | .ok (clients, _) => some clients
    | .error _ => none
  | .remove clientId => match removeTrustedClient parsePublicKeyBase64 clients clientId with
    | .ok (clients, _) => some clients
    | .error _ => none

/-! ## Uniqueness -/

/-- No two clients share an id or a key, and a removal takes the key away. -/
structure Complete (clients : List TrustedRelayClient) : Prop where
  ids : (clients.map TrustedRelayClient.clientId).Nodup
  keys : (clients.map fun client => parsePublicKeyBase64 client.publicKeyB64).Nodup
  removed : ∀ clientId kept, removeTrustedClient parsePublicKeyBase64 clients clientId =
    .ok (kept, true) → ∀ client ∈ clients, client.clientId = clientId →
      ∀ other ∈ kept, parsePublicKeyBase64 other.publicKeyB64 ≠
        parsePublicKeyBase64 client.publicKeyB64

def StoreMeets (clients : List TrustedRelayClient) : Operation → Prop
  | .upsert client => ∀ a ∈ clients, ∀ b ∈ clients, a.clientId = client.clientId →
      b.publicKeyB64 = client.publicKeyB64 → a = b
  | .remove _ => True

instance (clients : List TrustedRelayClient) (a : Operation) :
    Decidable (StoreMeets clients a) := by
  cases a <;> dsimp only [StoreMeets] <;> infer_instance

def Differ (a b : TrustedRelayClient) : Prop :=
  a.clientId ≠ b.clientId ∧ a.publicKeyB64 ≠ b.publicKeyB64

instance : Std.Symm Differ := ⟨fun _ _ h => ⟨h.1.symm, h.2.symm⟩⟩

/-- Stored clients are valid, and two of them differ in the id and in the text of the key. -/
structure Distinct (clients : List TrustedRelayClient) : Prop where
  valid : ∀ client ∈ clients, validateClient parsePublicKeyBase64 client = .ok ()
  pairwise : clients.Pairwise Differ

variable {parsePublicKeyBase64} {clients kept : List TrustedRelayClient}
  {client : TrustedRelayClient} {a : Operation} {clientId : Uuid} {changed : Bool}

theorem removeTrustedClient_eq
    (h : removeTrustedClient parsePublicKeyBase64 clients clientId = .ok (kept, changed)) :
    kept = clients.filter (·.clientId ≠ clientId) := by
  obtain ⟨_, hread, h⟩ := bind_eq_ok_iff.1 h
  obtain ⟨_, -, hread⟩ := bind_eq_ok_iff.1 hread
  cases hread
  cases h
  rfl

theorem parse_ne_none (h : validateClient parsePublicKeyBase64 client = .ok ()) :
    parsePublicKeyBase64 client.publicKeyB64 ≠ none := by
  unfold validateClient at h
  split_ifs at h with _ _ _ _ hkey
  exact hkey

section

variable (h : Distinct parsePublicKeyBase64 clients)
include h

theorem upsertTrustedClient_perm (hmeets : StoreMeets clients (.upsert client))
    (hupsert : upsertTrustedClient parsePublicKeyBase64 clients client = .ok (kept, changed)) :
    ∃ others, others <+ clients ∧ kept ~ client :: others ∧
      validateClient parsePublicKeyBase64 client = .ok () ∧
        ∀ other ∈ others, Differ client other := by
  obtain ⟨_, hvalid, hupsert⟩ := bind_eq_ok_iff.1 hupsert
  obtain ⟨_, hread, hupsert⟩ := bind_eq_ok_iff.1 hupsert
  obtain ⟨_, -, hread⟩ := bind_eq_ok_iff.1 hread
  cases hread
  split at hupsert
  · rename_i i hfind
    cases hupsert
    obtain ⟨hi, hmatch, -⟩ := findIdx?_eq_some_iff_getElem.1 hfind
    have hperm := getElem_cons_eraseIdx_perm hi
    obtain ⟨hold, -⟩ := pairwise_cons.1 ((hperm.pairwise_iff symm).2 h.pairwise)
    refine ⟨clients.eraseIdx i, eraseIdx_sublist _ _, set_perm_cons_eraseIdx hi _, hvalid, ?_⟩
    intro other hother
    have hdiffer := hold other hother
    have hmem := mem_of_mem_eraseIdx hother
    have hmem' := getElem_mem hi
    rw [Bool.or_eq_true, decide_eq_true_eq, decide_eq_true_eq] at hmatch
    -- another client with the id or the key would be the one in the place
    constructor
    · intro hid
      rcases hmatch with hid' | hkey
      · exact hdiffer.1 (hid'.trans hid)
      · exact hdiffer.1 (hmeets other hmem _ hmem' hid.symm hkey ▸ rfl)
    · intro hkey
      rcases hmatch with hid | hkey'
      · exact hdiffer.1 (hmeets _ hmem' other hmem hid hkey.symm ▸ rfl)
      · exact hdiffer.2 (hkey'.trans hkey)
  · rename_i hfind
    cases hupsert
    refine ⟨clients, Sublist.refl _, perm_append_comm, hvalid, fun other hother => ?_⟩
    have hnot := findIdx?_eq_none_iff.1 hfind other hother
    rw [Bool.or_eq_false_iff, decide_eq_false_iff_not, decide_eq_false_iff_not] at hnot
    exact ⟨Ne.symm hnot.1, Ne.symm hnot.2⟩

theorem Distinct.step (hmeets : StoreMeets clients a)
    (hstep : storeStep parsePublicKeyBase64 clients a = some kept) :
    Distinct parsePublicKeyBase64 kept := by
  cases a with
  | upsert client =>
    simp only [storeStep] at hstep
    split at hstep <;> cases hstep
    rename_i hupsert
    obtain ⟨others, hsub, hperm, hvalid, hothers⟩ := upsertTrustedClient_perm h hmeets hupsert
    refine ⟨fun other hother => ?_, (hperm.pairwise_iff symm).2 (pairwise_cons.2 ?_)⟩
    · rcases mem_cons.1 (hperm.subset hother) with rfl | hold
      · exact hvalid
      · exact h.valid other (hsub.subset hold)
    · exact ⟨hothers, h.pairwise.sublist hsub⟩
  | remove clientId =>
    simp only [storeStep] at hstep
    split at hstep <;> cases hstep
    rename_i hremove
    rw [removeTrustedClient_eq hremove]
    exact ⟨fun other hother => h.valid other (mem_of_mem_filter hother), h.pairwise.filter _⟩

/-- `hparse`: base64 and the bytes of a key have one text for each key. -/
theorem Distinct.complete (hparse : ∀ text text' key, parsePublicKeyBase64 text = some key →
      parsePublicKeyBase64 text' = some key → text = text') :
    Complete parsePublicKeyBase64 clients := by
  have hkey : ∀ {a b}, a ∈ clients → Differ a b →
      parsePublicKeyBase64 a.publicKeyB64 ≠ parsePublicKeyBase64 b.publicKeyB64 := by
    intro a b ha hne heq
    obtain ⟨key, hkey⟩ := Option.ne_none_iff_exists'.1 (parse_ne_none (h.valid a ha))
    exact hne.2 (hparse _ _ key hkey (heq ▸ hkey))
  refine ⟨pairwise_map.2 (h.pairwise.imp And.left), pairwise_map.2 ?_, ?_⟩
  · exact h.pairwise.imp_of_mem fun ha _ hne => hkey ha hne
  · intro clientId kept hremove client hclient hid other hother
    rw [removeTrustedClient_eq hremove] at hother
    obtain ⟨hmem, hne⟩ := mem_filter.1 hother
    apply hkey hmem (h.pairwise.forall hmem hclient ?_)
    rintro rfl
    simp [hid] at hne

end

theorem complete_of_reachable (hparse : ∀ text text' key, parsePublicKeyBase64 text = some key →
      parsePublicKeyBase64 text' = some key → text = text')
    (h : Reachable (storeStep parsePublicKeyBase64) StoreMeets (· = []) clients) :
    Complete parsePublicKeyBase64 clients := by
  have hdistinct : Distinct parsePublicKeyBase64 clients := h.invariant
    (fun _ hinit => hinit ▸ ⟨nofun, Pairwise.nil⟩) fun _ _ _ h hmeets hstep => h.step hmeets hstep
  exact hdistinct.complete hparse

def exampleKeys : List Text :=
  ["11qYAYKxCrfVS/7TyWQHOg7hcvPapiMlrwIaaPcHURo=",
    "PUAXw+hDiVqStwqnTRt+vJyYLM8uxJaMwM1V8Sr0Zgw=",
    "/FHNjmIYoaONpH7QAjDwWAgW7RO6MwOsXeuRFUiQgCU="].map String.toList

local instance lawfulText : LawfulBEq Text := inferInstance

def exampleParse (text : Text) : Option Text := if text ∈ exampleKeys then some text else none

def exampleClient (n : UInt8) (key : ℕ) : TrustedRelayClient :=
  ⟨⟨replicate 16 n, rfl⟩, ['p'], ['f'], ['l'], ['d'], exampleKeys.getD key []⟩

/-- A client gets a new key; the other is removed and comes back with the old key of the first. -/
theorem complete_of_reachable_example :
    Complete exampleParse [exampleClient 1 2, exampleClient 2 0] := by
  have hexec : exec (storeStep exampleParse) StoreMeets [] [.upsert (exampleClient 1 0),
      .upsert (exampleClient 2 1), .upsert (exampleClient 1 2),
      .remove (exampleClient 2 1).clientId,
      .upsert (exampleClient 2 0)] = some [exampleClient 1 2, exampleClient 2 0] := by
    decide +kernel
  refine complete_of_reachable (fun text text' key h h' => ?_) ⟨[], rfl, runs_of_exec hexec⟩
  unfold exampleParse at h h'
  split_ifs at h h'
  cases h
  exact (Option.some.inj h').symm

/-- The first of two clients takes the key of the second one. -/
theorem exists_not_complete : ∃ clients,
    Reachable (storeStep exampleParse) anyStep (· = []) clients ∧
      ¬ Complete exampleParse clients := by
  have hexec : exec (storeStep exampleParse) anyStep [] [.upsert (exampleClient 1 0),
      .upsert (exampleClient 2 1), .upsert (exampleClient 1 1)] =
        some [exampleClient 1 1, exampleClient 2 1] := by decide +kernel
  exact ⟨_, ⟨[], rfl, runs_of_exec hexec⟩, fun h => absurd h.keys (by decide +kernel)⟩

end VibeKanban.Relay
