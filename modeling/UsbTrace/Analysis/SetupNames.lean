import UsbTrace.Model.SetupText
import UsbTrace.Library.Layout

/-!
# The names of requests

A request with number 3 or 1 is called a feature request whether it is a standard one or of
any class, whoever receives it, and a link state is named after the low two bits of its
field.  So the name is another request's for the class requests of interfaces and endpoints,
and another state's for the states from 4 on; otherwise it is right (`setup_names_iff`).
-/

set_option autoImplicit false

namespace UsbTrace.Analysis

open UsbTrace.Model UsbTrace.Library

/-- The text starts with the name of a feature request. -/
def NamesFeature (text : CStr) : Prop := setFeature <+: text ∨ clearFeature <+: text

/-- The text names link state `Un`. -/
def NamesLinkState (n : ℕ) (text : CStr) : Prop :=
  ∃ verb, (verb = setFeature ∨ verb = clearFeature) ∧
    verb ++ (' ' :: (portLinkState ++ (' ' :: 'U' :: (decimal n ++ [' '])))) <+: text

/-- The request does not get another request's name: it is called a feature request only if it
is one, of a device, an interface or an endpoint, of a hub or of a port, and its link state is
named only if the field of `wIndex` holds it. -/
def RightlyNamed (s : SetupPacket) : Prop :=
  (NamesFeature (formatSetup s reqSize) →
    (setupRequest s = 3 ∨ setupRequest s = 1) ∧
      (setupType s = 0 ∨ setupType s = 1 ∧ (setupRecip s = 0 ∨ setupRecip s = 3))) ∧
    ∀ n, NamesLinkState n (formatSetup s reqSize) → (setupIndexHigh s).toNat = n

/-! ## Names that no name starts with -/

/-- Neither text starts with the other. -/
def Apart (a b : CStr) : Prop := ¬a <+: b ∧ ¬b <+: a

instance (a b : CStr) : Decidable (Apart a b) := inferInstanceAs (Decidable (_ ∧ _))

theorem Apart.not_prefix {a b : CStr} (h : Apart a b) (rest : CStr) : ¬a <+: b ++ rest := by
  intro hp
  rcases List.prefix_or_prefix_of_prefix hp (List.prefix_append b rest) with hab | hba
  · exact h.1 hab
  · exact h.2 hba

/-- The names of the other requests. -/
def otherNames : List CStr :=
  ["GET_PORT_STATUS".toList, "SET_REPORT".toList, "SET_IDLE".toList, "VENDOR".toList] ++
    (stdReqNames.filter fun p => p.1 ≠ 3 ∧ p.1 ≠ 1).map Prod.snd

theorem otherNames_apart (name : CStr) (h : name ∈ otherNames) :
    Apart setFeature name ∧ Apart clearFeature name := by
  have hall :
      otherNames.all (fun name => Apart setFeature name ∧ Apart clearFeature name) = true := by
    decide
  simpa using List.all_eq_true.mp hall name h

/-- The names of the other features. -/
def otherFeatures : List CStr :=
  ["FUNCTION_SUSPEND".toList, "ENDPOINT_HALT".toList] ++ deviceFeatures.map Prod.snd ++
    (portFeatures.filter fun p => p.1 ≠ 5).map Prod.snd ++ hubFeatures.map Prod.snd

theorem otherFeatures_apart (name : CStr) (h : name ∈ otherFeatures) :
    Apart portLinkState name := by
  have hall : otherFeatures.all (fun name => Apart portLinkState name) = true := by decide
  simpa using List.all_eq_true.mp hall name h

theorem mem_of_lookup {α : Type} [DecidableEq α] {table : List (α × CStr)} {a : α} {name : CStr}
    (h : table.lookup a = some name) : (a, name) ∈ table := by
  obtain ⟨l, r, rfl, -⟩ := List.lookup_eq_some_iff.mp h
  simp

/-! ## The request -/

/-- Which requests are called feature requests, and by which name. -/
theorem requestName_cases (s : SetupPacket) :
    ((setupType s = 0 ∨ setupType s = 1) ∧
      ((s 1 = 3 ∧ requestName s = some setFeature) ∨
        (s 1 = 1 ∧ requestName s = some clearFeature))) ∨
    (¬((setupType s = 0 ∨ setupType s = 1) ∧ (s 1 = 3 ∨ s 1 = 1)) ∧
      ∀ name, requestName s = some name → name ∈ otherNames) := by
  by_cases hfeature : (setupType s = 0 ∨ setupType s = 1) ∧ (s 1 = 3 ∨ s 1 = 1)
  · refine .inl ⟨hfeature.1, ?_⟩
    unfold requestName
    rcases hfeature with ⟨htype | htype, hreq | hreq⟩
    · exact .inl ⟨hreq, by rw [htype, hreq]; rfl⟩
    · exact .inr ⟨hreq, by rw [htype, hreq]; rfl⟩
    · exact .inl ⟨hreq, by rw [htype, hreq]; rfl⟩
    · exact .inr ⟨hreq, by rw [htype, hreq]; rfl⟩
  · refine .inr ⟨hfeature, ?_⟩
    intro name hname
    unfold requestName at hname
    dsimp only at hname
    rw [if_neg fun h => hfeature ⟨.inr h.1, h.2⟩] at hname
    unfold otherNames
    split_ifs at hname with h1 h2 h3 h4 htype
    · cases hname
      exact List.mem_append_left _ (by simp)
    · cases hname
      exact List.mem_append_left _ (by simp)
    · cases hname
      exact List.mem_append_left _ (by simp)
    · cases hname
      exact List.mem_append_left _ (by simp)
    · have hmem := mem_of_lookup hname
      have hreq : s 1 ≠ 3 ∧ s 1 ≠ 1 := not_or.mp fun h => hfeature ⟨.inl htype, h⟩
      apply List.mem_append_right
      exact List.mem_map.mpr ⟨_, List.mem_filter.mpr ⟨hmem, decide_eq_true hreq⟩, rfl⟩

/-- The text is the name of the request, and more. -/
theorem setupText_cases (s : SetupPacket) :
    (requestName s = none ∧ ∃ rest, setupText s = "rt=0x".toList ++ rest) ∨
    ∃ name rest, requestName s = some name ∧ setupText s = name ++ rest := by
  unfold setupText
  dsimp only
  cases requestName s with
  | none => exact .inl ⟨rfl, _, rfl⟩
  | some name =>
    refine .inr ⟨name, ?_⟩
    dsimp only
    split_ifs
    · exact ⟨_, rfl, rfl⟩
    · exact ⟨_, rfl, rfl⟩

/-- The prefixes of what is printed are those of the text that fit. -/
theorem prefix_formatSetup {p : CStr} {s : SetupPacket} (hp : p.length ≤ 95) :
    p <+: formatSetup s reqSize ↔ p <+: setupText s := by
  show p <+: (setupText s).take 95 ↔ _
  rw [List.prefix_take_iff]
  exact and_iff_left hp

/-- **The feature requests** are those of number 3 and 1, standard or of a class. -/
theorem namesFeature_iff (s : SetupPacket) :
    NamesFeature (formatSetup s reqSize) ↔
      (setupType s = 0 ∨ setupType s = 1) ∧ (s 1 = 3 ∨ s 1 = 1) := by
  unfold NamesFeature
  rw [prefix_formatSetup (by decide), prefix_formatSetup (by decide)]
  rcases requestName_cases s with ⟨htype, hreq⟩ | ⟨hnot, hother⟩
  · rcases setupText_cases s with ⟨hnone, -⟩ | ⟨name, rest, hname, htext⟩
    · rcases hreq with ⟨-, hname⟩ | ⟨-, hname⟩
      · exact absurd (hname.symm.trans hnone) (by simp)
      · exact absurd (hname.symm.trans hnone) (by simp)
    · rw [htext]
      rcases hreq with ⟨hreq, hset⟩ | ⟨hreq, hclear⟩
      · obtain rfl := Option.some.inj (hname.symm.trans hset)
        exact iff_of_true (.inl (List.prefix_append _ _)) ⟨htype, .inl hreq⟩
      · obtain rfl := Option.some.inj (hname.symm.trans hclear)
        exact iff_of_true (.inr (List.prefix_append _ _)) ⟨htype, .inr hreq⟩
  · refine iff_of_false ?_ hnot
    rcases setupText_cases s with ⟨-, rest, htext⟩ | ⟨name, rest, hname, htext⟩
    · have hset : Apart setFeature "rt=0x".toList := by decide
      have hclear : Apart clearFeature "rt=0x".toList := by decide
      rw [htext]
      exact not_or.mpr ⟨hset.not_prefix rest, hclear.not_prefix rest⟩
    · obtain ⟨hset, hclear⟩ := otherNames_apart name (hother name hname)
      rw [htext]
      exact not_or.mpr ⟨hset.not_prefix rest, hclear.not_prefix rest⟩

/-! ## The link state -/

theorem setupLe16_toNat (s : SetupPacket) (off : Fin 8) :
    (setupLe16 s off).toNat = (s off).toNat + (s (off + 1)).toNat * 256 := by
  have hlo := (s off).toNat_lt
  have hhi := (s (off + 1)).toNat_lt
  unfold setupLe16
  rw [toNat_or_shiftLeft (by decide) (by rw [UInt8.toNat_toUInt32]; exact hlo)]
  · rw [UInt8.toNat_toUInt32, UInt8.toNat_toUInt32]
    rfl
  · rw [UInt8.toNat_toUInt32]
    show (s (off + 1)).toNat * 2 ^ 8 < 2 ^ 32
    omega

/-- The name is that of the low two bits of the field. -/
theorem linkStateName_eq (s : SetupPacket) :
    linkStateName (setupLe16 s 4) = some ('U' :: decimal ((s 5).toNat % 4 : ℕ)) := by
  have hlo := (s 4).toNat_lt
  have hpls : ((setupLe16 s 4 >>> 8) &&& 0x3).toNat = (s 5).toNat % 4 := by
    rw [UInt32.toNat_and, UInt32.toNat_shiftRight, setupLe16_toNat]
    show ((s 4).toNat + (s 5).toNat * 256) >>> 8 &&& (2 ^ 2 - 1) = _
    rw [Nat.and_two_pow_sub_one_eq_mod, Nat.shiftRight_eq_div_pow]
    omega
  have hlt : (s 5).toNat % 4 < 4 := Nat.mod_lt _ (by decide)
  unfold linkStateName
  dsimp only
  generalize (setupLe16 s 4 >>> 8) &&& 0x3 = pls at hpls
  rw [← hpls] at hlt ⊢
  have hcases : pls = 0 ∨ pls = 1 ∨ pls = 2 ∨ pls = 3 := by
    simp only [← UInt32.toNat_inj]
    show pls.toNat = 0 ∨ pls.toNat = 1 ∨ pls.toNat = 2 ∨ pls.toNat = 3
    omega
  rcases hcases with rfl | rfl | rfl | rfl <;> rfl

/-- The features that have a name. -/
theorem featureName_cases {type recip : UInt8} {value : UInt32} {name : CStr}
    (h : featureName type recip value = some name) :
    (type = 1 ∧ recip = 3 ∧ value = 5) ∨ name ∈ otherFeatures := by
  unfold featureName at h
  unfold otherFeatures
  split_ifs at h with htype hdevice hfunction hendpoint hport hhub
  · have hmem := List.mem_map_of_mem (f := Prod.snd) (mem_of_lookup h)
    simp only [List.mem_append]
    exact .inr (.inl (.inl (.inr hmem)))
  · cases h
    right
    simp
  · cases h
    right
    simp
  · by_cases hvalue : value = 5
    · exact .inl ⟨hport.1, hport.2, hvalue⟩
    · have hentry : (value, name) ∈ portFeatures.filter fun p => p.1 ≠ 5 :=
        List.mem_filter.mpr ⟨mem_of_lookup h, decide_eq_true hvalue⟩
      have hmem := List.mem_map_of_mem (f := Prod.snd) hentry
      simp only [List.mem_append]
      exact .inr (.inl (.inr hmem))
  · have hmem := List.mem_map_of_mem (f := Prod.snd) (mem_of_lookup h)
    simp only [List.mem_append]
    exact .inr (.inr hmem)

/-- Only the link state feature is followed by a link state. -/
theorem featureText_other {type recip : UInt8} {value : UInt32} (index : UInt32)
    (h : ¬(type = 1 ∧ recip = 3 ∧ value = 5)) :
    ¬ ' ' :: portLinkState <+: featureText type recip value index := by
  unfold featureText
  cases hname : featureName type recip value with
  | none =>
    have hapart : Apart (' ' :: portLinkState) " val=".toList := by decide
    exact hapart.not_prefix _
  | some name =>
    have hapart := otherFeatures_apart name ((featureName_cases hname).resolve_left h)
    dsimp only
    rw [if_neg fun hlink => h ⟨hlink.2.1, hlink.2.2, hlink.1⟩]
    by_cases hflags : recip = 1 ∧ value = 0
    · rw [if_pos hflags, List.cons_prefix_cons]
      exact fun hp => hapart.not_prefix _ hp.2
    · rw [if_neg hflags, List.cons_prefix_cons]
      exact fun hp => hapart.1 hp.2

theorem featureText_link (s : SetupPacket) :
    ∃ rest, featureText 1 3 5 (setupLe16 s 4) =
      ' ' :: (portLinkState ++ (' ' :: 'U' :: (decimal ((s 5).toNat % 4 : ℕ) ++ ' ' :: rest))) := by
  have hname : featureName 1 3 5 = some portLinkState := rfl
  unfold featureText
  rw [hname]
  dsimp only
  rw [if_pos (by decide), linkStateName_eq]
  exact ⟨_, rfl⟩

/-- A decimal number ends where its digits do. -/
theorem decimal_cancel {m n : ℕ} {a b : CStr}
    (h : decimal m ++ ' ' :: a <+: decimal n ++ ' ' :: b) : m = n := by
  have hdec : ∀ k : ℕ, decimal k = Nat.toDigits 10 k := fun k => if_neg (by omega)
  have hspan : ∀ (k : ℕ) (c : CStr),
      (Nat.toDigits 10 k ++ ' ' :: c).takeWhile Char.isDigit = Nat.toDigits 10 k := by
    intro k c
    rw [List.takeWhile_append_of_pos fun d hd => (digitVal_of_mem_toDigits hd).1]
    exact List.append_nil _
  obtain ⟨t, ht⟩ := h
  rw [hdec, hdec, List.append_assoc] at ht
  have hdigits := congrArg (List.takeWhile Char.isDigit) ht
  rw [List.cons_append, hspan, hspan] at hdigits
  rw [← digitsVal_toDigits m, hdigits, digitsVal_toDigits]

/-- The text of a feature request. -/
theorem setupText_feature {s : SetupPacket} (htype : setupType s = 0 ∨ setupType s = 1)
    (hreq : s 1 = 3 ∨ s 1 = 1) :
    ∃ verb, (verb = setFeature ∨ verb = clearFeature) ∧ setupText s =
      verb ++ featureText (setupType s) (setupRecip s) (setupLe16 s 2) (setupLe16 s 4) := by
  have hname : ∃ verb, (verb = setFeature ∨ verb = clearFeature) ∧ requestName s = some verb := by
    rcases requestName_cases s with ⟨-, ⟨-, hset⟩ | ⟨-, hclear⟩⟩ | ⟨hnot, -⟩
    · exact ⟨_, .inl rfl, hset⟩
    · exact ⟨_, .inr rfl, hclear⟩
    · exact absurd ⟨htype, hreq⟩ hnot
  obtain ⟨verb, hverb, hname⟩ := hname
  refine ⟨verb, hverb, ?_⟩
  unfold setupText
  rw [hname]
  exact if_pos hreq

/-- **The link states** are those of the ports, by the low two bits of the field. -/
theorem namesLinkState_iff (s : SetupPacket) (n : ℕ) :
    NamesLinkState n (formatSetup s reqSize) ↔
      setupType s = 1 ∧ (s 1 = 3 ∨ s 1 = 1) ∧ setupRecip s = 3 ∧ setupLe16 s 2 = 5 ∧
        n = (s 5).toNat % 4 := by
  have hverbs : Apart setFeature clearFeature := by decide
  constructor
  · rintro ⟨verb, hverb, hp⟩
    have hstarts : verb <+: formatSetup s reqSize := (List.prefix_append _ _).trans hp
    have hfeature : NamesFeature (formatSetup s reqSize) := by
      rcases hverb with rfl | rfl
      · exact .inl hstarts
      · exact .inr hstarts
    obtain ⟨htype, hreq⟩ := (namesFeature_iff s).mp hfeature
    obtain ⟨own, hown, htext⟩ := setupText_feature htype hreq
    have htake : formatSetup s reqSize <+: setupText s := List.take_prefix _ _
    have hsame : verb = own := by
      have hboth := hstarts.trans htake
      rw [htext] at hboth
      rcases hverb with rfl | rfl <;> rcases hown with rfl | rfl
      · rfl
      · exact absurd hboth (hverbs.not_prefix _)
      · exact absurd hboth (Apart.not_prefix ⟨hverbs.2, hverbs.1⟩ _)
      · rfl
    have hp := hp.trans htake
    rw [htext, hsame, List.prefix_append_right_inj] at hp
    by_cases hlink : setupType s = 1 ∧ setupRecip s = 3 ∧ setupLe16 s 2 = 5
    · obtain ⟨rest, hrest⟩ := featureText_link s
      rw [hlink.1, hlink.2.1, hlink.2.2, hrest, List.cons_prefix_cons,
        List.prefix_append_right_inj, List.cons_prefix_cons, List.cons_prefix_cons] at hp
      exact ⟨hlink.1, hreq, hlink.2.1, hlink.2.2, decimal_cancel hp.2.2.2⟩
    · have hname : ' ' :: portLinkState <+:
          ' ' :: (portLinkState ++ (' ' :: 'U' :: (decimal n ++ [' ']))) :=
        List.prefix_append (' ' :: portLinkState) _
      exact absurd (hname.trans hp) (featureText_other _ hlink)
  · rintro ⟨htype, hreq, hrecip, hvalue, rfl⟩
    obtain ⟨verb, hverb, htext⟩ := setupText_feature (.inr htype) hreq
    obtain ⟨rest, hrest⟩ := featureText_link s
    have hlen : ∀ k < 4, ∀ verb ∈ [setFeature, clearFeature],
        (verb ++ (' ' :: (portLinkState ++ (' ' :: 'U' :: (decimal (k : ℕ) ++ [' ']))))).length ≤
          95 := by decide
    refine ⟨verb, hverb, ?_⟩
    rw [prefix_formatSetup (hlen _ (Nat.mod_lt _ (by decide)) verb (by simpa using hverb)), htext,
      htype, hrecip, hvalue, hrest]
    simp

/-- **Requests are named rightly** except for the class requests of number 3 and 1 that go to
neither a hub nor a port, and the link states from 4 on.
SOURCE: urb.c:139-267 -/
theorem setup_names_iff (s : SetupPacket) :
    RightlyNamed s ↔
      (setupType s = 1 → s 1 = 3 ∨ s 1 = 1 →
        setupRecip s = 0 ∨ setupRecip s = 3 ∧ (setupLe16 s 2 = 5 → (s 5).toNat < 4)) := by
  unfold RightlyNamed setupRequest setupIndexHigh
  simp only [namesFeature_iff, namesLinkState_iff]
  constructor
  · rintro ⟨hfeature, hlink⟩ htype hreq
    have hclass : setupType s ≠ 0 := by
      rw [htype]
      decide
    obtain ⟨-, hstd | ⟨-, hhub | hport⟩⟩ := hfeature ⟨.inr htype, hreq⟩
    · exact absurd hstd hclass
    · exact .inl hhub
    · refine .inr ⟨hport, ?_⟩
      intro hvalue
      have hfield := hlink _ ⟨htype, hreq, hport, hvalue, rfl⟩
      rw [hfield]
      exact Nat.mod_lt _ (by decide)
  · intro hcond
    refine ⟨?_, ?_⟩
    · rintro ⟨hstd | hclass, hreq⟩
      · exact ⟨hreq, .inl hstd⟩
      · rcases hcond hclass hreq with hhub | ⟨hport, -⟩
        · exact ⟨hreq, .inr ⟨hclass, .inl hhub⟩⟩
        · exact ⟨hreq, .inr ⟨hclass, .inr hport⟩⟩
    · rintro n ⟨htype, hreq, hport, hvalue, rfl⟩
      rcases hcond htype hreq with hhub | ⟨-, hfield⟩
      · rw [hport] at hhub
        exact absurd hhub (by decide)
      · exact (Nat.mod_eq_of_lt (hfield hvalue)).symm

/-- `GET_REPORT` of a HID interface. -/
def getReport : SetupPacket := List.get [0xa1, 0x01, 0x00, 0x03, 0x00, 0x00, 0x40, 0x00]

/-- Port 1 told to go to `SS.Disabled`. -/
def disableLink : SetupPacket := List.get [0x23, 0x03, 0x05, 0x00, 0x01, 0x04, 0x00, 0x00]

theorem report_named_feature :
    NamesFeature (formatSetup getReport reqSize) ∧ ¬RightlyNamed getReport ∧
      NamesLinkState 0 (formatSetup disableLink reqSize) ∧ ¬RightlyNamed disableLink := by
  have hreport : NamesFeature (formatSetup getReport reqSize) := .inr (by decide)
  have hlink : NamesLinkState 0 (formatSetup disableLink reqSize) :=
    ⟨setFeature, .inl rfl, by decide⟩
  refine ⟨hreport, ?_, hlink, ?_⟩
  · intro h
    exact absurd (h.1 hreport) (by decide)
  · intro h
    exact absurd (h.2 0 hlink) (by decide)

end UsbTrace.Analysis
