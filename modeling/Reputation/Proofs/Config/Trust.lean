import Reputation.Config
import Reputation.Proofs.Text.Decimal
import Mathlib.Data.String.Basic
/-!
The table of trust that a configuration gives. Its keys are texts, and several texts may denote one
signer, by signs, leading zeros or white space around them. The weights are entered in the order of
the texts, so that of the greatest text remains; a text that denotes no signer refuses the table.
-/
namespace Reputation

open Text

theorem TrustTable.weightFor_eq (t : TrustTable) (signer : SignerId) :
    t.weightFor signer = (t.weights[signer]?).getD t.default :=
  Std.TreeMap.getD_eq_getD_getElem?

theorem TrustTable.getElem?_set (t : TrustTable) (signer other : SignerId) (weight : Float) :
    (t.set signer weight).weights[other]? =
      if signer = other then some weight else t.weights[other]? := by
  rw [set, Std.TreeMap.getElem?_insert]
  simp

namespace NodeConfig

/-- A key denotes a signer by any decimal text of its number, in white space or not. -/
def Denotes (key : String) (signer : SignerId) : Prop :=
  IsInteger (trim key).toList signer.val.toInt

def IsSignerText (key : String) : Prop :=
  ∃ n, IsInteger (trim key).toList n ∧ -2 ^ 63 ≤ n ∧ n < 2 ^ 63

theorem Denotes.unique {key : String} {signer other : SignerId} (h : Denotes key signer)
    (h' : Denotes key other) : signer = other :=
  (SignerId.eq_iff signer other).mpr (IsInteger.unique h h')

theorem isSignerText_iff {key : String} : IsSignerText key ↔ ∃ signer, Denotes key signer := by
  constructor
  · rintro ⟨n, hn, hlo, hhi⟩
    refine ⟨⟨Int64.ofInt n⟩, ?_⟩
    rwa [Denotes, Int64.toInt_ofInt_of_le hlo hhi]
  · rintro ⟨signer, h⟩
    exact ⟨_, h, signer.val.le_toInt, signer.val.toInt_lt⟩

theorem int64?_trimChars_eq_some_iff {key : String} {id : Int64} :
    int64? (trimChars key.toList) = some id ↔ Denotes key ⟨id⟩ := by
  rw [int64?_eq_some_iff, Denotes, trim, String.toList_ofList]

variable {table result : TrustTable} {key : String} {weight : Float} {signer : SignerId}
variable {entries : List (String × Float)}

theorem enterTrust_of_denotes (h : Denotes key signer) :
    enterTrust table ((key, weight) :: entries) = enterTrust (table.set signer weight) entries := by
  rw [enterTrust, int64?_trimChars_eq_some_iff.mpr h]

theorem enterTrust_of_not_denotes (h : ∀ signer, ¬ Denotes key signer) :
    enterTrust table ((key, weight) :: entries) = .error (.trustKey key) := by
  have hnone : int64? (trimChars key.toList) = none := by
    rw [Option.eq_none_iff_forall_ne_some]
    exact fun id hid => h ⟨id⟩ (int64?_trimChars_eq_some_iff.mp hid)
  rw [enterTrust, hnone]

theorem exists_of_enterTrust_cons (h : enterTrust table ((key, weight) :: entries) = .ok result) :
    ∃ owner, Denotes key owner ∧ enterTrust (table.set owner weight) entries = .ok result := by
  by_cases hkey : ∃ owner, Denotes key owner
  · obtain ⟨owner, howner⟩ := hkey
    exact ⟨owner, howner, enterTrust_of_denotes howner ▸ h⟩
  · rw [enterTrust_of_not_denotes (not_exists.mp hkey)] at h
    cases h

theorem enterTrust_outcome (table : TrustTable) (entries : List (String × Float)) :
    ((∀ entry ∈ entries, IsSignerText entry.1) ∧
      ∃ result, enterTrust table entries = .ok result) ∨
    ∃ front key weight back, entries = front ++ (key, weight) :: back ∧
      (∀ entry ∈ front, IsSignerText entry.1) ∧ ¬ IsSignerText key ∧
      enterTrust table entries = .error (.trustKey key) := by
  induction entries generalizing table with
  | nil => exact .inl ⟨by simp, table, rfl⟩
  | cons entry rest ih =>
    obtain ⟨key, weight⟩ := entry
    by_cases hkey : IsSignerText key
    · obtain ⟨signer, hsigner⟩ := isSignerText_iff.mp hkey
      rw [enterTrust_of_denotes hsigner]
      rcases ih (table.set signer weight) with ⟨hrest, hok⟩ | ⟨front, bad, w, back, rfl, hfront, h⟩
      · exact .inl ⟨List.forall_mem_cons.mpr ⟨hkey, hrest⟩, hok⟩
      · exact .inr ⟨(key, weight) :: front, bad, w, back, rfl,
          List.forall_mem_cons.mpr ⟨hkey, hfront⟩, h⟩
    · have hnone := not_exists.mp (mt isSignerText_iff.mpr hkey)
      exact .inr ⟨[], key, weight, rest, rfl, by simp, hkey, enterTrust_of_not_denotes hnone⟩

theorem default_enterTrust (h : enterTrust table entries = .ok result) :
    result.default = table.default := by
  induction entries generalizing table with
  | nil => rw [Except.ok.inj h]
  | cons entry rest ih =>
    obtain ⟨owner, -, hrest⟩ := exists_of_enterTrust_cons h
    rw [ih hrest]
    rfl

/-- In the order of the keys, each weight replaces those of all lesser keys of its signer. -/
theorem getElem?_enterTrust (h : enterTrust table entries = .ok result)
    (horder : entries.Pairwise fun a b => a.1 < b.1) (signer : SignerId) :
    (∃ entry ∈ entries, Denotes entry.1 signer ∧
      (∀ other ∈ entries, Denotes other.1 signer → other.1 ≤ entry.1) ∧
      result.weights[signer]? = some entry.2) ∨
    (∀ entry ∈ entries, ¬ Denotes entry.1 signer) ∧
      result.weights[signer]? = table.weights[signer]? := by
  induction entries generalizing table with
  | nil => exact .inr ⟨by simp, by rw [Except.ok.inj h]⟩
  | cons head rest ih =>
    obtain ⟨key, weight⟩ := head
    obtain ⟨owner, howner, hok⟩ := exists_of_enterTrust_cons h
    obtain ⟨hhead, hrest⟩ := List.pairwise_cons.mp horder
    rcases ih hok hrest with ⟨entry, hmem, hdenotes, hgreatest, hweight⟩ | ⟨hnone, hkept⟩
    · refine .inl ⟨entry, List.mem_cons_of_mem _ hmem, hdenotes, ?_, hweight⟩
      exact List.forall_mem_cons.mpr ⟨fun _ => (hhead entry hmem).le, hgreatest⟩
    · rw [TrustTable.getElem?_set] at hkept
      by_cases heq : owner = signer
      · rw [if_pos heq] at hkept
        refine .inl ⟨(key, weight), List.mem_cons_self, heq ▸ howner, ?_, hkept⟩
        exact List.forall_mem_cons.mpr
          ⟨fun _ => le_rfl, fun other hother hdenotes => absurd hdenotes (hnone other hother)⟩
      · rw [if_neg heq] at hkept
        refine .inr ⟨List.forall_mem_cons.mpr ⟨?_, hnone⟩, hkept⟩
        exact fun hdenotes => heq (howner.unique hdenotes)

variable {c : NodeConfig}

theorem mem_trust_iff {key : String} :
    key ∈ c.trust ↔ ∃ weight, (key, weight) ∈ c.trust.toList := by
  simp only [Std.TreeMap.mem_toList_iff_getElem?_eq_some, Std.TreeMap.mem_iff_isSome_getElem?,
    Option.isSome_iff_exists]

theorem forall_mem_trust_iff {p : String → Prop} :
    (∀ entry ∈ c.trust.toList, p entry.1) ↔ ∀ key ∈ c.trust, p key := by
  simp only [mem_trust_iff, Prod.forall, forall_exists_index]

theorem trust_in_order (c : NodeConfig) : c.trust.toList.Pairwise fun a b => a.1 < b.1 := by
  have horder := Std.TreeMap.ordered_keys_toList (t := c.trust)
  exact horder.imp fun h => compareOfLessAndEq_eq_lt.mp h

/-- The greatest key that denotes the signer, and its weight. -/
structure GreatestKey (trust : Std.TreeMap String Float) (signer : SignerId) (key : String)
    (weight : Float) : Prop where
  entry : trust[key]? = some weight
  denotes : Denotes key signer
  greatest : ∀ other ∈ trust, Denotes other signer → other ≤ key

theorem GreatestKey.mem {trust : Std.TreeMap String Float} {signer : SignerId} {key : String}
    {weight : Float} (h : GreatestKey trust signer key weight) : key ∈ trust := by
  rw [Std.TreeMap.mem_iff_isSome_getElem?, h.entry]
  rfl

theorem GreatestKey.unique {trust : Std.TreeMap String Float} {signer : SignerId}
    {key key' : String} {weight weight' : Float} (h : GreatestKey trust signer key weight)
    (h' : GreatestKey trust signer key' weight') : weight = weight' := by
  obtain rfl : key = key' :=
    le_antisymm (h'.greatest key h.mem h.denotes) (h.greatest key' h'.mem h'.denotes)
  exact Option.some.inj (h.entry.symm.trans h'.entry)

theorem trustTable_error {fault : ConfigFault} (h : c.trustTable = .error fault) :
    ∃ key ∈ c.trust, fault = .trustKey key ∧ ¬ IsSignerText key ∧
      ∀ other ∈ c.trust, other < key → IsSignerText other := by
  rcases enterTrust_outcome { default := c.defaultTrust } c.trust.toList with
    ⟨-, result, hok⟩ | ⟨front, key, weight, back, hsplit, hfront, hkey, herror⟩
  · cases hok.symm.trans h
  · have horder := c.trust_in_order
    rw [hsplit] at horder
    have hmem : (key, weight) ∈ c.trust.toList := by simp [hsplit]
    refine ⟨key, mem_trust_iff.mpr ⟨weight, hmem⟩, ?_, hkey, ?_⟩
    · exact (Except.error.inj (herror.symm.trans h)).symm
    · intro other hother hlt
      obtain ⟨w, hw⟩ := mem_trust_iff.mp hother
      rw [hsplit] at hw
      rcases List.mem_append.mp hw with hw | hw
      · exact hfront (other, w) hw
      · -- From the refused key on, no key is less.
        have hback := (List.pairwise_append.mp horder).2.1
        rcases List.mem_cons.mp hw with heq | hw
        · obtain ⟨rfl, -⟩ := Prod.mk.inj heq
          exact absurd hlt (lt_irrefl other)
        · exact absurd hlt (List.rel_of_pairwise_cons hback hw).not_gt

theorem exists_trustTable_iff (c : NodeConfig) :
    (∃ table, c.trustTable = .ok table) ↔ ∀ key ∈ c.trust, IsSignerText key := by
  rw [← forall_mem_trust_iff]
  rcases enterTrust_outcome { default := c.defaultTrust } c.trust.toList with
    ⟨hall, hok⟩ | ⟨front, key, weight, back, hsplit, -, hkey, herror⟩
  · exact ⟨fun _ => hall, fun _ => hok⟩
  · constructor
    · rintro ⟨table, hok⟩
      cases hok.symm.trans herror
    · intro hall
      exact absurd (hall (key, weight) (by simp [hsplit])) hkey

theorem getElem?_trustTable {table : TrustTable} (h : c.trustTable = .ok table)
    (signer : SignerId) :
    (∃ key weight, GreatestKey c.trust signer key weight ∧
      table.weights[signer]? = some weight) ∨
    (∀ key ∈ c.trust, ¬ Denotes key signer) ∧ table.weights[signer]? = none := by
  rcases getElem?_enterTrust h c.trust_in_order signer with
    ⟨⟨key, weight⟩, hmem, hdenotes, hgreatest, hweight⟩ | ⟨hnone, hkept⟩
  · refine .inl ⟨key, weight, ⟨?_, hdenotes, ?_⟩, hweight⟩
    · exact Std.TreeMap.mem_toList_iff_getElem?_eq_some.mp hmem
    · exact forall_mem_trust_iff.mp hgreatest
  · exact .inr ⟨forall_mem_trust_iff.mp hnone, by simpa using hkept⟩

theorem mem_weights_iff {table : TrustTable} (h : c.trustTable = .ok table) (signer : SignerId) :
    signer ∈ table.weights ↔ ∃ key ∈ c.trust, Denotes key signer := by
  rw [Std.TreeMap.mem_iff_isSome_getElem?]
  rcases getElem?_trustTable h signer with ⟨key, weight, hkey, hweight⟩ | ⟨hnone, hweight⟩
  · rw [hweight]
    exact ⟨fun _ => ⟨key, hkey.mem, hkey.denotes⟩, fun _ => rfl⟩
  · rw [hweight]
    constructor
    · intro hsome
      cases hsome
    · rintro ⟨key, hmem, hdenotes⟩
      exact absurd hdenotes (hnone key hmem)

/-- A configuration gives a table just if each of its keys is the text of a 64-bit number. A signer
then has the weight of the greatest key that denotes it, and the default weight if there is none;
and the table is as large as there are signers denoted. -/
theorem trustTable_by_greatest_key (c : NodeConfig) :
    ((∃ table, c.trustTable = .ok table) ↔ ∀ key ∈ c.trust, IsSignerText key) ∧
    ∀ table, c.trustTable = .ok table →
      (∀ signer,
        (∃ key weight, GreatestKey c.trust signer key weight ∧ table.weightFor signer = weight) ∨
        (∀ key ∈ c.trust, ¬ Denotes key signer) ∧ table.weightFor signer = c.defaultTrust) ∧
      ∃ signers : List SignerId, signers.Nodup ∧
        (∀ signer, signer ∈ signers ↔ ∃ key ∈ c.trust, Denotes key signer) ∧
        table.size = signers.length := by
  refine ⟨c.exists_trustTable_iff, fun table h => ⟨fun signer => ?_, ?_⟩⟩
  · have hdefault : table.default = c.defaultTrust := default_enterTrust h
    rw [table.weightFor_eq]
    rcases getElem?_trustTable h signer with ⟨key, weight, hkey, hweight⟩ | ⟨hnone, hweight⟩
    · exact .inl ⟨key, weight, hkey, by rw [hweight, Option.getD_some]⟩
    · exact .inr ⟨hnone, by rw [hweight, Option.getD_none, hdefault]⟩
  · refine ⟨table.weights.keys, Std.TreeMap.nodup_keys, fun signer => ?_, ?_⟩
    · rw [Std.TreeMap.mem_keys, mem_weights_iff h]
    · exact Std.TreeMap.length_keys.symm

def respelled : NodeConfig where
  defaultTrust := 0.25
  trust := .ofList [("7", 1.0), ("007 ", 2.0), ("+7", 3.0), ("-0", 4.0)]

theorem mem_respelled {key : String} : key ∈ respelled.trust ↔ key ∈ ["7", "007 ", "+7", "-0"] := by
  simp [respelled]

theorem denotes_respelled : ∀ key ∈ ["7", "007 ", "+7", "-0"],
    Denotes key ⟨if key = "-0" then 0 else 7⟩ := by
  have hread : ∀ key ∈ ["7", "007 ", "+7", "-0"],
      int64? (trimChars key.toList) = some (if key = "-0" then 0 else 7) := by decide +kernel
  exact fun key hkey => int64?_trimChars_eq_some_iff.mp (hread key hkey)

theorem greatestKey_respelled : GreatestKey respelled.trust ⟨7⟩ "7" 1.0 where
  entry := Std.TreeMap.getElem?_ofList_of_mem (k := "7") rfl (by decide +kernel) List.mem_cons_self
  denotes := denotes_respelled "7" List.mem_cons_self
  greatest := by
    have hle : ∀ key ∈ ["7", "007 ", "+7", "-0"], key ≤ "7" := by decide +kernel
    exact fun key hkey _ => hle key (mem_respelled.mp hkey)

/-- Of the three texts, the one that is greatest as a text wins, though it is given first. -/
theorem trustTable_by_greatest_key_respelled : ∃ table, respelled.trustTable = .ok table ∧
    table.weightFor ⟨7⟩ = 1.0 ∧ table.weightFor ⟨8⟩ = 0.25 ∧ table.size = 2 := by
  obtain ⟨hgiven, htables⟩ := trustTable_by_greatest_key respelled
  have hdenoted : ∀ {key signer}, key ∈ respelled.trust → Denotes key signer →
      signer = ⟨0⟩ ∨ signer = ⟨7⟩ := by
    intro key signer hkey hdenotes
    have hread := hdenotes.unique (denotes_respelled key (mem_respelled.mp hkey))
    split at hread
    · exact .inl hread
    · exact .inr hread
  obtain ⟨table, htable⟩ := hgiven.mpr fun key hkey =>
    isSignerText_iff.mpr ⟨_, denotes_respelled key (mem_respelled.mp hkey)⟩
  obtain ⟨hweight, signers, hnodup, hmem, hsize⟩ := htables table htable
  refine ⟨table, htable, ?_, ?_, ?_⟩
  · rcases hweight ⟨7⟩ with ⟨key, weight, hkey, heq⟩ | ⟨hnone, -⟩
    · rw [heq, hkey.unique greatestKey_respelled]
    · exact absurd greatestKey_respelled.denotes (hnone "7" (by simp [mem_respelled]))
  · rcases hweight ⟨8⟩ with ⟨key, weight, hkey, -⟩ | ⟨-, heq⟩
    · rcases hdenoted hkey.mem hkey.denotes with heq | heq <;> cases heq
    · exact heq
  · have hperm : signers.Perm [⟨0⟩, ⟨7⟩] := by
      rw [List.perm_ext_iff_of_nodup hnodup (by decide)]
      intro signer
      rw [hmem, List.mem_pair]
      constructor
      · rintro ⟨key, hkey, hdenotes⟩
        exact hdenoted hkey hdenotes
      · rintro (rfl | rfl)
        · exact ⟨"-0", by simp [mem_respelled], denotes_respelled "-0" (by simp)⟩
        · exact ⟨"7", greatestKey_respelled.mem, greatestKey_respelled.denotes⟩
    rw [hsize, hperm.length_eq]
    rfl

end NodeConfig
end Reputation
