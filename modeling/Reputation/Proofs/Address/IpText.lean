import Reputation.Address.IpText
import Reputation.Proofs.Text.Numeral
import Reputation.Proofs.Text.Splitting
/-!
Addresses read back. The text that is printed of an address of either family is read as that
address: octets and groups come back as numbers, and the groups left out are the zeros they stood
for.
-/
namespace Reputation

open Text

/-- What printed addresses consist of. -/
def IsAddressChar (c : Char) : Prop := IsDigit c ∨ c = '.' ∨ c = ':'

instance (c : Char) : Decidable (IsAddressChar c) := inferInstanceAs (Decidable (_ ∨ _ ∨ _))

namespace Ipv4

theorem octet?_decimalText {n : Nat} (h : n < 256) : octet? (decimalText n).toList = some n := by
  have hlength : (decimalText n).toList.length ≤ 3 := by
    rw [decimalText_toList]
    exact length_shortDigits_le (by decide) (by decide) (by omega)
  have hhead : ¬ ((decimalText n).toList.head? = some '0' ∧ 1 < (decimalText n).toList.length) := by
    rintro ⟨hzero, hlong⟩
    rcases Nat.eq_zero_or_pos n with rfl | hpos
    · simp [decimalText, shortDigits] at hlong
    · rw [decimalText_toList] at hzero
      exact head?_shortDigits (by decide) (by decide) hpos
        (Nat.lt_of_lt_of_le Nat.lt_log2_self (Nat.pow_le_pow_left (by decide) _)) hzero
  have hle : n ≤ 255 := by omega
  simp only [octet?, digits?_decimalText]
  simp [hhead, Nat.not_lt.mpr hlength, hle]

theorem text_toList (a : Ipv4) :
    a.text.toList = ['.'].intercalate (a.octets.map fun n => (decimalText n).toList) := by
  rw [text, String.toList_intercalate, List.map_map]
  rfl

theorem parseChars?_text (a : Ipv4) : parseChars? a.text.toList = some a := by
  have hlt := a.value_lt
  have hsplit : splitOnChar '.' a.text.toList = a.octets.map fun n => (decimalText n).toList := by
    rw [text_toList]
    refine splitOnChar_intercalate (by simp [octets]) ?_
    intro p hp hdot
    obtain ⟨n, -, rfl⟩ := List.mem_map.mp hp
    exact absurd (isDigit_decimalText n _ hdot) (by decide)
  simp only [parseChars?, hsplit, octets, List.map_cons, List.map_nil]
  simp only [Nat.shiftRight_eq_div_pow]
  rw [octet?_decimalText (by omega), octet?_decimalText (by omega), octet?_decimalText (by omega),
    octet?_decimalText (by omega)]
  have hvalue : ((a.value / 2 ^ 24 * 256 + a.value / 2 ^ 16 % 256) * 256 +
      a.value / 2 ^ 8 % 256) * 256 + a.value % 256 = a.value := by omega
  simp only [Option.bind_eq_bind, Option.bind_some, hvalue, ofNat?, hlt, dite_true]

theorem isAddressChar_text (a : Ipv4) : ∀ c ∈ a.text.toList, IsAddressChar c := by
  rw [text_toList]
  refine forall_mem_intercalate (List.forall_mem_singleton.mpr (by decide)) ?_
  intro p hp c hc
  obtain ⟨n, -, rfl⟩ := List.mem_map.mp hp
  exact Or.inl (isDigit_decimalText n c hc)

theorem isDigit_of_octet? {cs : List Char} {n : Nat} (h : octet? cs = some n) :
    ∀ c ∈ cs, IsDigit c := by
  unfold octet? at h
  split at h
  · cases h
  · exact isDigit_of_digits? (by decide) (Option.filter_eq_some_iff.mp h).1

theorem isDigit_or_dot_of_parseChars? {cs : List Char} {a : Ipv4} (h : parseChars? cs = some a) :
    ∀ c ∈ cs, IsDigit c ∨ c = '.' := by
  unfold parseChars? at h
  split at h
  · rename_i p q r s hsplit
    simp only [Option.bind_eq_bind, Option.bind_eq_some_iff] at h
    obtain ⟨_, hp, _, hq, _, hr, _, hs, -⟩ := h
    have hpieces : ∀ piece ∈ splitOnChar '.' cs, ∀ c ∈ piece, IsDigit c := by
      rw [hsplit]
      intro piece hpiece
      simp only [List.mem_cons, List.not_mem_nil, or_false] at hpiece
      rcases hpiece with rfl | rfl | rfl | rfl
      · exact isDigit_of_octet? hp
      · exact isDigit_of_octet? hq
      · exact isDigit_of_octet? hr
      · exact isDigit_of_octet? hs
    exact forall_mem_of_splitOnChar (.inr rfl)
      fun piece hpiece c hc => .inl (hpieces piece hpiece c hc)
  · cases h

theorem colon_notMem_of_parseChars? {cs : List Char} {a : Ipv4} (h : parseChars? cs = some a) :
    ':' ∉ cs :=
  fun hcolon => absurd (isDigit_or_dot_of_parseChars? h ':' hcolon) (by decide)

end Ipv4

namespace Ipv6

/-! ## Groups -/

theorem length_hexText_le {g : Nat} (h : g < 65536) : (hexText g).toList.length ≤ 4 := by
  rw [hexText_toList]
  exact length_shortDigits_le (by decide) (by decide) (by omega)

theorem group?_hexText {g : Nat} (h : g < 65536) : group? (hexText g).toList = some g := by
  rw [group?, if_neg (Nat.not_lt.mpr (length_hexText_le h)), digits?_hexText]

theorem group?_eq_none {cs : List Char} (h : '.' ∈ cs) : group? cs = none := by
  unfold group?
  split
  · rfl
  · cases hd : digits? 16 cs with
    | none => rfl
    | some n => exact absurd (isDigit_of_digits? (by decide) hd '.' h) (by decide)

def groupTexts (gs : List Nat) : List (List Char) := gs.map fun g => (hexText g).toList

theorem groups?_groupTexts (quad : Bool) {gs : List Nat} (h : ∀ g ∈ gs, g < 65536) :
    groups? quad (groupTexts gs) = some gs := by
  induction gs with
  | nil => rfl
  | cons g gs ih =>
    have hg := group?_hexText (h g List.mem_cons_self)
    have hrest := ih fun x hx => h x (List.mem_cons_of_mem _ hx)
    cases gs with
    | nil => simp [groupTexts, groups?, hg]
    | cons g' gs =>
      simp only [groupTexts, List.map_cons] at hrest ⊢
      rw [groups?]
      · rw [hg, hrest]
        rfl
      · simp

theorem ne_nil_of_mem_groupTexts {gs : List Nat} {p : List Char} (h : p ∈ groupTexts gs) :
    p ≠ [] := by
  obtain ⟨g, -, rfl⟩ := List.mem_map.mp h
  exact hexText_ne_nil g

theorem isDigit_of_mem_groupTexts {gs : List Nat} {p : List Char} (h : p ∈ groupTexts gs) :
    ∀ c ∈ p, IsDigit c := by
  obtain ⟨g, -, rfl⟩ := List.mem_map.mp h
  exact isDigit_hexText g

theorem colon_notMem_of_mem_groupTexts {gs : List Nat} {p : List Char} (h : p ∈ groupTexts gs) :
    ':' ∉ p :=
  fun hcolon => absurd (isDigit_of_mem_groupTexts h ':' hcolon) (by decide)

theorem groupsText_toList (gs : List Nat) :
    (groupsText gs).toList = [':'].intercalate (groupTexts gs) := by
  rw [groupsText, String.toList_intercalate, List.map_map]
  rfl

theorem isAddressChar_groupsText (gs : List Nat) :
    ∀ c ∈ (groupsText gs).toList, IsAddressChar c := by
  rw [groupsText_toList]
  refine forall_mem_intercalate (List.forall_mem_singleton.mpr (by decide)) ?_
  intro p hp c hc
  exact Or.inl (isDigit_of_mem_groupTexts hp c hc)

theorem groups?_groupsText (quad : Bool) (gs : List Nat) (hne : gs ≠ [])
    (h : ∀ g ∈ gs, g < 65536) :
    groups? quad (splitOnChar ':' (groupsText gs).toList) = some gs := by
  rw [groupsText_toList, splitOnChar_intercalate (by simpa [groupTexts] using hne)
    (fun p hp => colon_notMem_of_mem_groupTexts hp), groups?_groupTexts quad h]

theorem intercalate_cons_eq (sep : List Char) (c : Char) (p : List Char)
    (pieces : List (List Char)) : ∃ rest, sep.intercalate ((c :: p) :: pieces) = c :: rest := by
  cases pieces with
  | nil => exact ⟨p, by simp⟩
  | cons q pieces => exact ⟨p ++ sep ++ sep.intercalate (q :: pieces), by simp⟩

theorem side?_groupsText (quad : Bool) (gs : List Nat) (h : ∀ g ∈ gs, g < 65536) :
    side? quad (groupsText gs).toList = some gs := by
  cases gs with
  | nil => rfl
  | cons g gs =>
    have hne : (groupsText (g :: gs)).toList ≠ [] := by
      rw [groupsText_toList, groupTexts, List.map_cons]
      obtain ⟨c, p, hp⟩ := List.exists_cons_of_ne_nil (hexText_ne_nil g)
      obtain ⟨rest, hrest⟩ := intercalate_cons_eq [':'] c p (groupTexts gs)
      rw [hp]
      exact hrest ▸ List.cons_ne_nil c rest
    have hempty : (groupsText (g :: gs)).toList.isEmpty = false := by simpa using hne
    rw [side?, hempty]
    exact groups?_groupsText quad (g :: gs) (by simp) h

/-! ## The gap -/

theorem splitAtGap?_append_of_notMem {p : List Char} (h : ':' ∉ p) (cs : List Char) :
    splitAtGap? (p ++ cs) = (splitAtGap? cs).map fun (a, b) => (p ++ a, b) := by
  induction p with
  | nil => simp
  | cons c p ih =>
    have hc : c ≠ ':' := fun heq => h (heq ▸ List.mem_cons_self)
    rw [List.cons_append, splitAtGap?]
    · rw [ih fun hp => h (List.mem_cons_of_mem _ hp)]
      cases splitAtGap? cs <;> rfl
    · intro _ heq
      exact absurd heq hc

theorem splitAtGap?_colon {c : Char} (hc : c ≠ ':') (cs : List Char) :
    splitAtGap? (':' :: c :: cs) = (splitAtGap? (c :: cs)).map fun (a, b) => (':' :: a, b) := by
  rw [splitAtGap?]
  intro _ _ heq
  exact hc (List.cons.inj heq).1

theorem splitAtGap?_intercalate {pieces : List (List Char)} (hne : ∀ p ∈ pieces, p ≠ [])
    (hcolon : ∀ p ∈ pieces, ':' ∉ p) (cs : List Char) :
    splitAtGap? ([':'].intercalate pieces ++ cs) =
      (splitAtGap? cs).map fun (a, b) => ([':'].intercalate pieces ++ a, b) := by
  induction pieces with
  | nil => simp
  | cons p pieces ih =>
    have hp := hcolon p List.mem_cons_self
    have hrest := ih (fun q hq => hne q (List.mem_cons_of_mem _ hq))
      (fun q hq => hcolon q (List.mem_cons_of_mem _ hq))
    cases pieces with
    | nil => simpa using splitAtGap?_append_of_notMem hp cs
    | cons q pieces =>
      obtain ⟨c, q', rfl⟩ := List.exists_cons_of_ne_nil (hne q (by simp))
      obtain ⟨rest, hjoin⟩ := intercalate_cons_eq [':'] c q' pieces
      have hc : c ≠ ':' := fun heq => hcolon (c :: q') (by simp) (heq ▸ List.mem_cons_self)
      rw [List.intercalate_cons_cons, List.append_assoc, List.append_assoc,
        splitAtGap?_append_of_notMem hp]
      rw [hjoin] at hrest ⊢
      simp only [List.nil_append, List.cons_append] at hrest ⊢
      rw [splitAtGap?_colon hc, hrest]
      cases splitAtGap? cs <;> simp

theorem splitAtGap?_groupsText_append (gs : List Nat) (cs : List Char) :
    splitAtGap? ((groupsText gs).toList ++ cs) =
      (splitAtGap? cs).map fun (a, b) => ((groupsText gs).toList ++ a, b) := by
  rw [groupsText_toList]
  exact splitAtGap?_intercalate (fun p hp => ne_nil_of_mem_groupTexts hp)
    (fun p hp => colon_notMem_of_mem_groupTexts hp) cs

/-- From `start` on there are `len` zeros. -/
def ZeroRun (gs : List Nat) (start len : Nat) : Prop :=
  ∀ k, start ≤ k → k < start + len → gs[k]? = some 0

theorem ZeroRun.empty (gs : List Nat) (start : Nat) : ZeroRun gs start 0 :=
  fun _ hk hlt => absurd hlt (Nat.not_lt.mpr hk)

theorem ZeroRun.snoc {gs : List Nat} {start len : Nat} (h : ZeroRun gs start len)
    (hzero : gs[start + len]? = some 0) : ZeroRun gs start (len + 1) := by
  intro k hk hlt
  by_cases hlast : k = start + len
  · rw [hlast, hzero]
  · exact h k hk (by omega)

/-- Whatever run is chosen, it consists of zeros. The run that ends at the present position is
carried along, besides the longest one so far. -/
theorem zeroRun_spec {all front rest : List Nat} {start len bestStart bestLen : Nat}
    (hall : all = front ++ rest) (hrun : ZeroRun all start len)
    (hend : len ≠ 0 → start + len = front.length) (hbest : ZeroRun all bestStart bestLen) :
    ZeroRun all (zeroRun front.length start len bestStart bestLen rest).1
      (zeroRun front.length start len bestStart bestLen rest).2 := by
  induction rest generalizing front start len bestStart bestLen with
  | nil => exact hbest
  | cons g rest ih =>
    have hsplit : all = (front ++ [g]) ++ rest := by simp [hall]
    have hlength : (front ++ [g]).length = front.length + 1 := by simp
    by_cases hg : g = 0
    -- A zero makes the run that ends here longer, and anything else begins a new one.
    · have hzero : all[front.length]? = some 0 := by simp [hall, hg]
      have hlonger : ∃ start', (if len = 0 then front.length else start) = start' ∧
          start' + len = front.length ∧ ZeroRun all start' len := by
        by_cases hlen : len = 0
        · exact ⟨_, rfl, by simp [hlen], by simpa [hlen] using ZeroRun.empty all front.length⟩
        · exact ⟨_, rfl, by simpa [hlen] using hend hlen, by simpa [hlen] using hrun⟩
      obtain ⟨start', hstart, hend', hrun'⟩ := hlonger
      have hrun'' := hrun'.snoc (hend' ▸ hzero)
      have hend'' : start' + (len + 1) = (front ++ [g]).length := by omega
      simp only [zeroRun, hg, if_true, hstart]
      split
      · exact hlength ▸ ih hsplit hrun'' (fun _ => hend'') hrun''
      · exact hlength ▸ ih hsplit hrun'' (fun _ => hend'') hbest
    · simp only [zeroRun, hg, if_false]
      exact hlength ▸ ih hsplit (ZeroRun.empty all 0) (fun h => absurd rfl h) hbest

theorem zeroRun_zeros (gs : List Nat) :
    ZeroRun gs (zeroRun 0 0 0 0 0 gs).1 (zeroRun 0 0 0 0 0 gs).2 :=
  @zeroRun_spec gs [] gs 0 0 0 0 rfl (ZeroRun.empty gs 0) (fun h => absurd rfl h)
    (ZeroRun.empty gs 0)

theorem ZeroRun.splice {gs : List Nat} {start len : Nat} (h : ZeroRun gs start len) :
    gs.take start ++ List.replicate len 0 ++ gs.drop (start + len) = gs := by
  have hrun : (gs.drop start).take len = List.replicate len 0 := by
    refine List.ext_getElem? fun k => ?_
    by_cases hk : k < len
    · simp [hk, h (start + k) (by omega) (by omega)]
    · simp [hk]
  rw [← hrun, List.append_assoc, ← List.drop_drop, List.take_append_drop, List.take_append_drop]

theorem ZeroRun.le_length {gs : List Nat} {start len : Nat} (h : ZeroRun gs start len)
    (hlen : 0 < len) : start + len ≤ gs.length := by
  have hlast := h (start + len - 1) (by omega) (by omega)
  have := (List.getElem?_eq_some_iff.mp hlast).1
  omega

/-! ## Whole addresses -/

theorem length_groups (a : Ipv6) : a.groups.length = 8 := by
  simp [groups]

theorem groups_lt (a : Ipv6) : ∀ g ∈ a.groups, g < 65536 := by
  intro g hg
  obtain ⟨i, -, rfl⟩ := List.mem_map.mp hg
  exact Nat.mod_lt _ (by decide)

theorem ofGroups?_groups (a : Ipv6) : ofGroups? a.groups = some a := by
  have hlt := a.value_lt
  have htop : 0 * 65536 + a.value / 2 ^ 112 % 65536 = a.value / 2 ^ 112 := by
    rw [Nat.zero_mul, Nat.zero_add]
    exact Nat.mod_eq_of_lt (Nat.div_lt_of_lt_mul hlt)
  have hstep (n k : Nat) : n / 2 ^ (k + 16) * 65536 + n / 2 ^ k % 65536 = n / 2 ^ k := by
    rw [Nat.pow_add, ← Nat.div_div_eq_div_mul]
    exact Nat.div_add_mod' _ _
  have hvalue : a.groups.foldl (fun n g => n * 65536 + g) 0 = a.value := by
    simp only [groups, List.range, List.range.loop, List.map_cons, List.map_nil, List.foldl_cons,
      List.foldl_nil, Nat.shiftRight_eq_div_pow]
    rw [htop, hstep _ 96, hstep _ 80, hstep _ 64, hstep _ 48, hstep _ 32, hstep _ 16, hstep _ 0,
      Nat.pow_zero, Nat.div_one]
  rw [ofGroups?, hvalue, ofNat?, dif_pos hlt]

theorem parseChars?_of_full {cs : List Char} {gs : List Nat} (hgap : splitAtGap? cs = none)
    (hgroups : groups? true (splitOnChar ':' cs) = some gs) (hlength : gs.length = 8) :
    parseChars? cs = ofGroups? gs := by
  simp only [parseChars?, hgap, hgroups, Option.bind_eq_bind, Option.bind_some, hlength, if_true]

theorem parseChars?_of_gap {cs head tail : List Char} {hs ts : List Nat}
    (hgap : splitAtGap? cs = some (head, tail)) (hhead : side? false head = some hs)
    (htail : side? true tail = some ts) (hfew : hs.length + ts.length ≤ 7) :
    parseChars? cs =
      ofGroups? (hs ++ List.replicate (8 - hs.length - ts.length) 0 ++ ts) := by
  simp only [parseChars?, hgap, hhead, htail, Option.bind_eq_bind, Option.bind_some, hfew, if_true]

theorem unmapped?_eq_some {a : Ipv6} {quad : Ipv4} (h : a.unmapped? = some quad) :
    a.value = 0xffff00000000 + quad.value := by
  unfold unmapped? at h
  split at h
  · rename_i hprefix
    unfold Ipv4.ofNat? at h
    split at h
    · obtain rfl := Option.some.inj h
      simp only [Nat.shiftRight_eq_div_pow] at hprefix ⊢
      omega
    · cases h
  · cases h

theorem parseChars?_mapped {a : Ipv6} {quad : Ipv4} (h : a.unmapped? = some quad) :
    parseChars? ("::ffff:" ++ quad.text).toList = some a := by
  have hvalue := unmapped?_eq_some h
  have hquad := quad.value_lt
  have hgap : splitAtGap? ("::ffff:" ++ quad.text).toList =
      some ([], "ffff".toList ++ ':' :: quad.text.toList) := by
    simp [splitAtGap?]
  have hcolon : ':' ∉ quad.text.toList :=
    Ipv4.colon_notMem_of_parseChars? quad.parseChars?_text
  have hpieces : splitOnChar ':' ("ffff".toList ++ ':' :: quad.text.toList) =
      ["ffff".toList, quad.text.toList] := by
    rw [splitOnChar_append (by decide), splitOnChar_of_notMem hcolon]
  have hdot : '.' ∈ quad.text.toList := by
    rw [Ipv4.text_toList]
    simp [Ipv4.octets, List.intercalate_cons_cons]
  have hside : side? true ("ffff".toList ++ ':' :: quad.text.toList) =
      some [0xffff, quad.value / 65536, quad.value % 65536] := by
    have hffff : group? ['f', 'f', 'f', 'f'] = some 0xffff := by decide
    rw [side?, hpieces]
    simp [groups?, hffff, group?_eq_none hdot, quad.parseChars?_text]
  have hlt := a.value_lt
  have hgroups : ofGroups? (List.replicate 5 0 ++
      [0xffff, quad.value / 65536, quad.value % 65536]) = some a := by
    have hsum : (List.replicate 5 0 ++ [0xffff, quad.value / 65536, quad.value % 65536]).foldl
        (fun n g => n * 65536 + g) 0 = a.value := by
      simp only [List.replicate, List.cons_append, List.nil_append, List.foldl_cons, List.foldl_nil]
      omega
    rw [ofGroups?, hsum, ofNat?, dif_pos hlt]
  rw [parseChars?_of_gap hgap rfl hside (by simp)]
  exact hgroups

theorem parseChars?_text (a : Ipv6) : parseChars? a.text.toList = some a := by
  unfold text
  split
  · rename_i quad hquad
    exact parseChars?_mapped hquad
  · dsimp only
    have hrun := zeroRun_zeros a.groups
    generalize (zeroRun 0 0 0 0 0 a.groups).1 = start at hrun ⊢
    generalize (zeroRun 0 0 0 0 0 a.groups).2 = len at hrun ⊢
    have hlt := a.groups_lt
    split
    · rename_i hlen
      have hle := hrun.le_length (by omega)
      rw [a.length_groups] at hle
      have hhead := side?_groupsText false (a.groups.take start)
        fun g hg => hlt g (List.mem_of_mem_take hg)
      have htail := side?_groupsText true (a.groups.drop (start + len))
        fun g hg => hlt g (List.mem_of_mem_drop hg)
      have hgap : splitAtGap? (groupsText (a.groups.take start) ++ "::" ++
          groupsText (a.groups.drop (start + len))).toList =
            some ((groupsText (a.groups.take start)).toList,
              (groupsText (a.groups.drop (start + len))).toList) := by
        simp [splitAtGap?_groupsText_append, splitAtGap?]
      have hstart : (a.groups.take start).length = start := by
        rw [List.length_take, a.length_groups]
        omega
      have hrest : (a.groups.drop (start + len)).length = 8 - (start + len) := by
        rw [List.length_drop, a.length_groups]
      have hmissing : 8 - start - (8 - (start + len)) = len := by omega
      rw [parseChars?_of_gap hgap hhead htail (by omega), hstart, hrest, hmissing, hrun.splice,
        a.ofGroups?_groups]
    · have hgap : splitAtGap? (groupsText a.groups).toList = none := by
        simpa [splitAtGap?] using splitAtGap?_groupsText_append a.groups []
      have hgroups := groups?_groupsText true a.groups
        (List.ne_nil_of_length_pos (by rw [a.length_groups]; decide)) hlt
      rw [parseChars?_of_full hgap hgroups a.length_groups, a.ofGroups?_groups]

theorem colon_mem_of_parseChars? {cs : List Char} {a : Ipv6} (h : parseChars? cs = some a) :
    ':' ∈ cs := by
  by_contra hcolon
  have hgap : splitAtGap? cs = none := by
    simpa [splitAtGap?] using splitAtGap?_append_of_notMem hcolon []
  have hshort : ∀ gs, groups? true [cs] = some gs → gs.length ≠ 8 := by
    intro gs hgs
    unfold groups? at hgs
    split at hgs
    · cases hgs
      simp
    · obtain ⟨quad, -, rfl⟩ := Option.map_eq_some_iff.mp hgs
      simp
  simp only [parseChars?, hgap, splitOnChar_of_notMem hcolon, Option.bind_eq_bind,
    Option.bind_eq_some_iff] at h
  obtain ⟨gs, hgs, hgroups⟩ := h
  rw [if_neg (hshort gs hgs)] at hgroups
  cases hgroups

theorem isAddressChar_text (a : Ipv6) : ∀ c ∈ a.text.toList, IsAddressChar c := by
  intro c hc
  unfold text at hc
  split at hc
  · rename_i quad _
    rw [String.toList_append, List.mem_append] at hc
    rcases hc with hc | hc
    · have hstart : "::ffff:".toList.all (fun c => IsAddressChar c) = true := by decide
      simpa using List.all_eq_true.mp hstart c hc
    · exact quad.isAddressChar_text c hc
  · dsimp only at hc
    split at hc
    · rw [String.toList_append, String.toList_append, List.mem_append, List.mem_append] at hc
      rcases hc with (hc | hc) | hc
      · exact isAddressChar_groupsText _ c hc
      · have hgap : "::".toList.all (fun c => IsAddressChar c) = true := by decide
        simpa using List.all_eq_true.mp hgap c hc
      · exact isAddressChar_groupsText _ c hc
    · exact isAddressChar_groupsText _ c hc

end Ipv6

namespace Ip

theorem parseChars?_text (a : Ip) : parseChars? a.text.toList = some a := by
  cases a with
  | v4 a => simp [parseChars?, text, a.parseChars?_text]
  | v6 a =>
    have hcolon := Ipv6.colon_mem_of_parseChars? a.parseChars?_text
    have hnone : Ipv4.parseChars? a.text.toList = none := by
      cases hquad : Ipv4.parseChars? a.text.toList with
      | none => rfl
      | some quad => exact absurd hcolon (Ipv4.colon_notMem_of_parseChars? hquad)
    simp [parseChars?, text, hnone, a.parseChars?_text]

theorem isAddressChar_text (a : Ip) : ∀ c ∈ a.text.toList, IsAddressChar c := by
  cases a with
  | v4 a => exact a.isAddressChar_text
  | v6 a => exact a.isAddressChar_text

end Ip
end Reputation
