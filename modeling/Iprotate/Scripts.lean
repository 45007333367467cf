import Iprotate.Frame

/-!
# The scripts of the service

`start_iprotate.sh`, `stop_iprotate.sh` and `reload_iprotate.sh` get the name that `RunTask` gives to the service,
`iprotate_<order>_<name>`, and find from it the WireGuard file and interface of the profile; so does
`ServiceManager.wg_reload`.

- `generate_profile_config` writes the file `writtenPath` (`generateProfileConfig_writes`).
- The start and the stop script find it and its interface exactly if the profile's name has no underscore, no dot and
  no white space; the other two places never do (`agrees_iff`, `scripts_agree`).
- The start script looks for `ip_1_my.conf` for a profile `my_vps` (`underscore_loses_file`).
-/

namespace Iprotate
namespace Scripts

open ConfigLoader Shell Prog

/-! ## What is generated -/

/-- `f"ip_{order}_{config_name}"` -/
def interfaceName (order configName : Str) : Str := "ip_" ++ order ++ "_" ++ configName

/-- The WireGuard file that `generate_profile_config` writes. -/
def writtenPath (order configName : Str) : Str :=
  "profile_config/" ++ profileName order configName ++ "/" ++ interfaceName order configName ++ ".conf"

/-- The directory the program runs in. -/
def home : Str := "/opt/cloud-iprotate/"

/-! ## What is looked for -/

/-- The words that a place hands to `wg-quick` as a file and to `wg` as an interface. -/
structure Use where
  path : List Str
  interface : List Str
  deriving DecidableEq, Repr

/-- `"ip_$(echo $config_name | cut -d "_" -f2,3).conf"` -/
def wgConfig (configName : Str) : Str := "ip_" ++ cut '_' [2, 3] (echo (fields configName)) ++ ".conf"

/-- What the start and the stop script make of their argument. -/
def tunnel (configName : Str) : Use where
  path := fields (home ++ "profile_config/" ++ configName ++ "/" ++ wgConfig configName)
  interface := fields (cut '.' [1] (echo (fields (wgConfig configName))))

/-- The four places. -/
inductive Place
  | startIprotate
  | stopIprotate
  | reloadIprotate
  | wgReload
  deriving DecidableEq, Repr

/-- What a place makes of the name of the service. The first three are scripts, the last one formats the name into the
command. -/
def use : Place → Str → Use
  | .startIprotate, name => tunnel name
  | .stopIprotate, name => tunnel name
  | .reloadIprotate, name => ⟨fields (home ++ "profile_config/" ++ name ++ "/" ++ name ++ ".conf"), fields name⟩
  | .wgReload, name => ⟨[home ++ "profile_config/" ++ name ++ "/" ++ name ++ ".conf"], [name]⟩

/-- The place opens the file that was written and asks for its interface. -/
def Agrees (place : Place) (order : Nat) (configName : Str) : Prop :=
  use place (profileName (showNat order) configName) =
    ⟨[home ++ writtenPath (showNat order) configName], [interfaceName (showNat order) configName]⟩

instance (place : Place) (order : Nat) (configName : Str) : Decidable (Agrees place order configName) :=
  inferInstanceAs (Decidable (_ = _))

/-- A name that the scripts take apart rightly. -/
def Separable (c : Str) : Prop := '_' ∉ c ∧ '.' ∉ c ∧ ∀ x ∈ c, isIfs x = false

/-! ## What is written -/

section Written

variable {path content : Str}

end Written

/-! ## The names taken apart -/

variable {order : Nat} {c : Str}

theorem showNat_plain {x : Char} (h : x ∈ showNat order) : x ≠ '_' ∧ x ≠ '.' ∧ isIfs x = false := by
  have hd : x.isDigit = true := mem_toString h
  refine ⟨?_, ?_, ?_⟩
  · rintro rfl
    exact absurd hd (by decide)
  · rintro rfl
    exact absurd hd (by decide)
  · by_contra hi
    simp only [isIfs, Bool.not_eq_false, Bool.or_eq_true, decide_eq_true_eq] at hi
    rcases hi with (rfl | rfl) | rfl <;> exact absurd hd (by decide)

theorem echo_fields {s : Str} (h : ∀ x ∈ s, isIfs x = false) (hne : s ≠ []) : echo (fields s) = s := by
  rw [fields_plain h hne, echo, List.intercalate_singleton]

/-- The name of the service as the parts that `cut` sees. -/
theorem profileName_eq (o c : Str) : profileName o c = "iprotate".toList ++ '_' :: (o ++ '_' :: c) := by
  have hp : ("iprotate_" : Str) = "iprotate".toList ++ ['_'] := by decide
  have hu : ("_" : Str) = ['_'] := by decide
  show "iprotate_".toList ++ o ++ "_".toList ++ c = _
  rw [hp, hu]
  simp only [List.append_assoc, List.cons_append, List.nil_append]

/-- The second and the third part of the service's name. -/
theorem cut_profileName (order : Nat) (c : Str) : cut '_' [2, 3] (profileName (showNat order) c) =
    showNat order ++ '_' :: c.takeWhile (· ≠ '_') := by
  obtain ⟨rest, hrest⟩ := splitOn_eq_takeWhile '_' c
  have hname := profileName_eq (showNat order) c
  have hsplit : (profileName (showNat order) c).splitOn '_' =
      "iprotate".toList :: showNat order :: c.takeWhile (· ≠ '_') :: rest := by
    rw [hname, List.splitOn_append_cons_self_of_not_mem (by decide),
      List.splitOn_append_cons_self_of_not_mem (fun h => (showNat_plain h).1 rfl), hrest]
  rw [cut, if_pos (by rw [hname]; simp), hsplit]
  simp [List.intercalate_cons_cons]

/-- The first part of a text with a dot. -/
theorem cut_dot {s : Str} (h : '.' ∈ s) : cut '.' [1] s = s.takeWhile (· ≠ '.') := by
  obtain ⟨rest, hrest⟩ := splitOn_eq_takeWhile '.' s
  rw [cut, if_pos h, hrest]
  simp

theorem takeWhile_eq_self_iff {d : Char} {s : Str} : s.takeWhile (· ≠ d) = s ↔ d ∉ s := by
  rw [List.takeWhile_eq_self_iff]
  constructor
  · intro h hd
    simpa using h d hd
  · rintro h x hx
    simpa using fun he : x = d => h (he ▸ hx)

/-- No white space in the name, none in what is made of it. -/
theorem not_isIfs_append {s t : Str} (hs : ∀ x ∈ s, isIfs x = false) (ht : ∀ x ∈ t, isIfs x = false) :
    ∀ x ∈ s ++ t, isIfs x = false := fun x hx => (List.mem_append.1 hx).elim (hs x) (ht x)

theorem not_isIfs_joined {a : Str} (ha : ∀ x ∈ a, isIfs x = false) (h : ∀ x ∈ c, isIfs x = false) :
    ∀ x ∈ a ++ showNat order ++ "_".toList ++ c, isIfs x = false := by
  have hu : ∀ x ∈ ("_" : Str), isIfs x = false := by decide
  exact not_isIfs_append (not_isIfs_append (not_isIfs_append ha fun _ hx => (showNat_plain hx).2.2) hu) h

theorem not_isIfs_profileName (h : ∀ x ∈ c, isIfs x = false) : ∀ x ∈ profileName (showNat order) c, isIfs x = false :=
  have hp : ∀ x ∈ ("iprotate_" : Str), isIfs x = false := by decide
  not_isIfs_joined hp h

theorem not_isIfs_interfaceName (h : ∀ x ∈ c, isIfs x = false) :
    ∀ x ∈ interfaceName (showNat order) c, isIfs x = false :=
  have hp : ∀ x ∈ ("ip_" : Str), isIfs x = false := by decide
  not_isIfs_joined hp h

theorem profileName_ne_nil (o c : Str) : profileName o c ≠ [] := by
  rw [profileName_eq]
  simp

/-- The file that the start and the stop script name, of a name without white space. -/
theorem wgConfig_profileName (h : ∀ x ∈ c, isIfs x = false) : wgConfig (profileName (showNat order) c) =
    interfaceName (showNat order) (c.takeWhile (· ≠ '_')) ++ ".conf".toList := by
  have hu : ("_" : Str) = ['_'] := by decide
  show "ip_".toList ++ cut '_' [2, 3] (echo (fields (profileName (showNat order) c))) ++ ".conf".toList =
    "ip_".toList ++ showNat order ++ "_".toList ++ c.takeWhile (· ≠ '_') ++ ".conf".toList
  rw [echo_fields (not_isIfs_profileName h) (profileName_ne_nil _ _), cut_profileName, hu]
  simp only [List.append_assoc, List.cons_append, List.nil_append]

/-- The text before the first dot of an interface's file. -/
theorem takeWhile_interfaceName (t : Str) : (interfaceName (showNat order) t ++ ".conf".toList).takeWhile (· ≠ '.') =
    interfaceName (showNat order) (t.takeWhile (· ≠ '.')) := by
  have hc : (".conf" : Str) = '.' :: "conf".toList := by decide
  have hplain : ∀ x ∈ "ip_".toList ++ showNat order ++ "_".toList, decide (x ≠ '.') = true := by
    have hp : ∀ x ∈ ("ip_" : Str), decide (x ≠ '.') = true := by decide
    have hu : ∀ x ∈ ("_" : Str), decide (x ≠ '.') = true := by decide
    intro x hx
    rcases List.mem_append.1 hx with hx | hx
    · rcases List.mem_append.1 hx with hx | hx
      · exact hp x hx
      · exact decide_eq_true (showNat_plain hx).2.1
    · exact hu x hx
  have hsuffix : (t ++ ".conf".toList).takeWhile (· ≠ '.') = t.takeWhile (· ≠ '.') := by
    rw [hc]
    induction t with
    | nil => simp
    | cons d t ih =>
      rcases eq_or_ne d '.' with rfl | hd
      · simp
      · simp only [List.cons_append, List.takeWhile_cons, hd, ne_eq, not_false_eq_true, decide_true, if_true, ih]
  show (("ip_".toList ++ showNat order ++ "_".toList) ++ t ++ ".conf".toList).takeWhile (· ≠ '.') =
    ("ip_".toList ++ showNat order ++ "_".toList) ++ t.takeWhile (· ≠ '.')
  rw [List.append_assoc _ t, List.takeWhile_append_of_pos hplain, hsuffix]

/-! ## The places -/

/-- Nothing is found if the name has white space, which the scripts do not quote. -/
theorem not_isIfs_of_path {p : Str} (h : fields p = [home ++ writtenPath (showNat order) c]) :
    ∀ x ∈ c, isIfs x = false := by
  intro x hx
  have hmem : home ++ writtenPath (showNat order) c ∈ fields p := by rw [h]; exact List.mem_singleton_self _
  refine not_isIfs_of_mem_fields hmem ?_
  have hint : x ∈ interfaceName (showNat order) c := List.mem_append_right _ hx
  exact List.mem_append_right _ (List.mem_append_left _ (List.mem_append_right _ hint))

theorem not_isIfs_takeWhile {q : Char → Bool} (h : ∀ x ∈ c, isIfs x = false) : ∀ x ∈ c.takeWhile q, isIfs x = false :=
  fun x hx => h x (List.takeWhile_subset q hx)

theorem interfaceName_ne_nil (o c : Str) : interfaceName o c ≠ [] := by
  have hp : ("ip_" : Str) = 'i' :: "p_".toList := by decide
  show "ip_".toList ++ o ++ "_".toList ++ c ≠ []
  rw [hp]
  exact List.cons_ne_nil _ _

theorem interfaceName_inj {o s t : Str} : interfaceName o s = interfaceName o t ↔ s = t := by
  show "ip_".toList ++ o ++ "_".toList ++ s = "ip_".toList ++ o ++ "_".toList ++ t ↔ s = t
  rw [List.append_cancel_left_eq]

theorem tunnel_path (n : Str) : (tunnel n).path =
    fields (home ++ "profile_config/".toList ++ n ++ "/".toList ++ wgConfig n) := rfl

/-- What the start and the stop script make of a name without white space. -/
theorem tunnel_profileName (h : ∀ x ∈ c, isIfs x = false) : tunnel (profileName (showNat order) c) =
    ⟨[home ++ "profile_config/".toList ++ profileName (showNat order) c ++ "/".toList ++
        (interfaceName (showNat order) (c.takeWhile (· ≠ '_')) ++ ".conf".toList)],
      [interfaceName (showNat order) ((c.takeWhile (· ≠ '_')).takeWhile (· ≠ '.'))]⟩ := by
  have hhome : ∀ x ∈ home ++ "profile_config/".toList, isIfs x = false := by decide +kernel
  have hslash : ∀ x ∈ ("/" : Str), isIfs x = false := by decide
  have hconf : ∀ x ∈ (".conf" : Str), isIfs x = false := by decide
  have hdot : '.' ∈ (".conf" : Str) := by decide
  have hname : ∀ x ∈ profileName (showNat order) c, isIfs x = false := not_isIfs_profileName h
  have hfile : ∀ x ∈ interfaceName (showNat order) (c.takeWhile (· ≠ '_')) ++ ".conf".toList, isIfs x = false :=
    not_isIfs_append (not_isIfs_interfaceName (not_isIfs_takeWhile h)) hconf
  have hpath := not_isIfs_append (not_isIfs_append (not_isIfs_append hhome hname) hslash) hfile
  have hinterface : ∀ x ∈ interfaceName (showNat order) ((c.takeWhile (· ≠ '_')).takeWhile (· ≠ '.')),
      isIfs x = false :=
    not_isIfs_interfaceName (not_isIfs_takeWhile (not_isIfs_takeWhile h))
  have hne : interfaceName (showNat order) (c.takeWhile (· ≠ '_')) ++ ".conf".toList ≠ [] :=
    List.append_ne_nil_of_left_ne_nil (interfaceName_ne_nil _ _) _
  have hw : wgConfig (profileName (showNat order) c) =
      interfaceName (showNat order) (c.takeWhile (· ≠ '_')) ++ ".conf".toList := wgConfig_profileName h
  refine Use.mk.injEq .. ▸ ⟨?_, ?_⟩
  · rw [hw]
    exact fields_plain hpath (List.append_ne_nil_of_right_ne_nil _ hne)
  · rw [hw, echo_fields hfile hne, cut_dot (List.mem_append_right _ hdot), takeWhile_interfaceName]
    exact fields_plain hinterface (interfaceName_ne_nil _ _)

/-- The written file, as the scripts put its path together. -/
theorem home_writtenPath (o c : Str) : home ++ writtenPath o c =
    home ++ "profile_config/".toList ++ profileName o c ++ "/".toList ++ (interfaceName o c ++ ".conf".toList) := by
  show home ++ ("profile_config/".toList ++ profileName o c ++ "/".toList ++ interfaceName o c ++ ".conf".toList) = _
  simp only [List.append_assoc]

/-- The start and the stop script. -/
theorem tunnel_iff : tunnel (profileName (showNat order) c) =
    ⟨[home ++ writtenPath (showNat order) c], [interfaceName (showNat order) c]⟩ ↔ Separable c := by
  constructor
  · intro h
    have hpath : (tunnel (profileName (showNat order) c)).path = [home ++ writtenPath (showNat order) c] :=
      congrArg Use.path h
    rw [tunnel_path] at hpath
    have hifs := not_isIfs_of_path hpath
    have hinterface := (congrArg Use.interface (tunnel_profileName hifs)).symm.trans (congrArg Use.interface h)
    have hdot : (c.takeWhile (· ≠ '_')).takeWhile (· ≠ '.') = c := interfaceName_inj.1 (List.singleton_inj.1 hinterface)
    have hlen := (List.takeWhile_sublist (· ≠ '.') (l := c.takeWhile (· ≠ '_'))).length_le
    have htw : c.takeWhile (· ≠ '_') = c := by
      refine (List.takeWhile_sublist _).eq_of_length_le ?_
      rwa [hdot] at hlen
    rw [htw] at hdot
    exact ⟨takeWhile_eq_self_iff.1 htw, takeWhile_eq_self_iff.1 hdot, hifs⟩
  · rintro ⟨hunderscore, hdot, hifs⟩
    rw [tunnel_profileName hifs, takeWhile_eq_self_iff.2 hunderscore, takeWhile_eq_self_iff.2 hdot, home_writtenPath]

theorem reload_path (n : Str) : (use .reloadIprotate n).path =
    fields (home ++ "profile_config/".toList ++ n ++ "/".toList ++ n ++ ".conf".toList) := rfl

theorem wgReload_path (n : Str) : (use .wgReload n).path =
    [home ++ "profile_config/".toList ++ n ++ "/".toList ++ n ++ ".conf".toList] := rfl

/-- The file is named after the interface, not after the service. -/
theorem named_after_service_ne (o c : Str) :
    home ++ "profile_config/".toList ++ profileName o c ++ "/".toList ++ profileName o c ++ ".conf".toList ≠
      home ++ writtenPath o c := by
  rw [home_writtenPath, ← List.append_assoc]
  intro h
  have hname := List.append_cancel_left (List.append_cancel_right h)
  have hs : ("iprotate_" : Str).length = 9 := by decide
  have hi : ("ip_" : Str).length = 3 := by decide
  have hlen : ("iprotate_".toList ++ o ++ "_".toList ++ c).length = ("ip_".toList ++ o ++ "_".toList ++ c).length :=
    congrArg List.length hname
  simp only [List.length_append, hs, hi] at hlen
  omega

theorem not_agrees_wgReload : ¬ Agrees .wgReload order c := by
  intro h
  have hpath : (use .wgReload (profileName (showNat order) c)).path = [home ++ writtenPath (showNat order) c] :=
    congrArg Use.path h
  rw [wgReload_path, List.singleton_inj] at hpath
  exact named_after_service_ne _ _ hpath

theorem not_agrees_reload : ¬ Agrees .reloadIprotate order c := by
  intro h
  have hpath : (use .reloadIprotate (profileName (showNat order) c)).path = [home ++ writtenPath (showNat order) c] :=
    congrArg Use.path h
  rw [reload_path] at hpath
  have hifs := not_isIfs_of_path hpath
  have hhome : ∀ x ∈ home ++ "profile_config/".toList, isIfs x = false := by decide +kernel
  have hslash : ∀ x ∈ ("/" : Str), isIfs x = false := by decide
  have hconf : ∀ x ∈ (".conf" : Str), isIfs x = false := by decide
  have hname : ∀ x ∈ profileName (showNat order) c, isIfs x = false := not_isIfs_profileName hifs
  have hplain :=
    not_isIfs_append (not_isIfs_append (not_isIfs_append (not_isIfs_append hhome hname) hslash) hname) hconf
  have hne : (".conf" : Str) ≠ [] := by decide
  rw [fields_plain hplain (List.append_ne_nil_of_right_ne_nil _ hne), List.singleton_inj] at hpath
  exact named_after_service_ne _ _ hpath

/-- A place finds the file and the interface exactly if it is the start or the stop script and the name is one that
they take apart rightly. -/
theorem agrees_iff (place : Place) : Agrees place order c ↔
    (place = .startIprotate ∨ place = .stopIprotate) ∧ Separable c := by
  cases place with
  | startIprotate => exact tunnel_iff.trans (by simp)
  | stopIprotate => exact tunnel_iff.trans (by simp)
  | reloadIprotate => exact iff_of_false not_agrees_reload (by simp)
  | wgReload => exact iff_of_false not_agrees_wgReload (by simp)

/-- **The scripts and the generator.** The start and the stop script agree with it about the names that are
`Separable` and no others; the reload script and `wg_reload` about none, so that the four never agree together. -/
theorem scripts_agree (order : Nat) (c : Str) :
    (∀ place, Agrees place order c ↔ (place = .startIprotate ∨ place = .stopIprotate) ∧ Separable c) ∧
      ¬ ∀ place, Agrees place order c := by
  refine ⟨fun place => agrees_iff place, ?_⟩
  intro hall
  exact not_agrees_reload (hall .reloadIprotate)

/-- The start script takes the first half of `my_vps` only. -/
theorem underscore_loses_file :
    (use .startIprotate (profileName (showNat 1) "my_vps")).path =
        [home ++ "profile_config/iprotate_1_my_vps/ip_1_my.conf".toList] ∧
      home ++ writtenPath (showNat 1) "my_vps" = home ++ "profile_config/iprotate_1_my_vps/ip_1_my_vps.conf".toList ∧
      ¬ ∀ place, Agrees place 1 "my_vps" := by
  refine ⟨by decide +kernel, by decide +kernel, fun hall => ?_⟩
  exact absurd (hall .startIprotate) (by decide +kernel)

end Scripts
end Iprotate
