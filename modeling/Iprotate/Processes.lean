import Iprotate.Base.Pattern
import Iprotate.Scripts

/-!
# The processes of a profile

`start_iprotate.sh` leaves four processes running, and `stop_iprotate.sh` finds the processes to stop by patterns on
their command lines.

- A pattern finds no process of a profile with another order (`not_selects_other`).
- The patterns of 3proxy, sslocal and tail are the command lines themselves, but the one of ssserver lacks the option
  `-v` and finds nothing (`ssserver_missed`).
- So the scripts never agree (`never_stops_exactly`).
-/

namespace Iprotate
namespace Processes

open ConfigLoader Shell Scripts Pattern

inductive Process
  | threeProxy
  | ssserver
  | sslocal
  | tail
  deriving DecidableEq, Repr

/-- A file in the directory of a profile. -/
def inProfile (name file : Str) : Str := home ++ "profile_config/" ++ name ++ "/" ++ file

/-- The command line of a process that `start_iprotate.sh` launches: its words with blanks between them. -/
def commandLine (name : Str) : Process → Str
  | .threeProxy => echo ("3proxy" :: fields (inProfile name ("proxy_" ++ name ++ ".cfg")))
  | .ssserver => echo ("ssserver" :: "-c" :: (fields (inProfile name "shadowsocks.json") ++
      ("-v" :: "--outbound-bind-interface" :: (tunnel name).interface : List Str)))
  | .sslocal => echo ("sslocal" :: "-c" :: fields (inProfile name "shadowsocks.json"))
  | .tail => echo ("tail" :: "-n1" :: "-f" :: fields (inProfile name "log.txt"))

/-- `$(echo $wg_config | cut -d "." -f1)` -/
def interface (name : Str) : Str := cut '.' [1] (echo (fields (wgConfig name)))

/-- The pattern that `stop_iprotate.sh` has for the process. -/
def stopPattern (name : Str) : Process → Str
  | .threeProxy => "3proxy " ++ inProfile name ("proxy_" ++ name ++ ".cfg")
  | .ssserver => "ssserver -c " ++ inProfile name "shadowsocks.json" ++ " --outbound-bind-interface " ++ interface name
  | .sslocal => "sslocal -c " ++ inProfile name "shadowsocks.json"
  | .tail => "tail -n1 -f " ++ inProfile name "log.txt"

/-- A name of letters, digits, underscores, hyphens and full stops. -/
def isProfileName (c : Str) : Bool := c.all fun x => x.isAlphanum || ['_', '-', '.'].contains x

/-- What the script for the name `iprotate_<order>_<c>` stops: every process that it started, and none of a profile with
another order. -/
structure StopsExactly (order : Nat) (c : Str) : Prop where
  own : ∀ p, ∃ q, selects (stopPattern (profileName (showNat order) c) q)
    (commandLine (profileName (showNat order) c) p) = true
  others : ∀ (order' : Nat) (c' : Str), order' ≠ order → isProfileName c' = true → ∀ p q,
    selects (stopPattern (profileName (showNat order) c) q) (commandLine (profileName (showNat order') c') p) = false

/-! ## The texts -/

variable {order order' : Nat} {c c' : Str}

theorem plain_of_isProfileName (h : isProfileName c = true) : ∀ x ∈ c, isIfs x = false ∧ x ≠ '/' := by
  intro x hx
  have hclass := List.all_eq_true.1 h x hx
  refine ⟨?_, ?_⟩
  · by_contra hi
    simp only [isIfs, Bool.not_eq_false, Bool.or_eq_true, decide_eq_true_eq] at hi
    rcases hi with (rfl | rfl) | rfl <;> revert hclass <;> decide
  · rintro rfl
    revert hclass
    decide

/-- What stands before the path. -/
def word : Process → Str
  | .threeProxy => "3proxy "
  | .ssserver => "ssserver -c "
  | .sslocal => "sslocal -c "
  | .tail => "tail -n1 -f "

/-- The file of the process. -/
def file (name : Str) : Process → Str
  | .threeProxy => "proxy_" ++ name ++ ".cfg"
  | .ssserver => "shadowsocks.json"
  | .sslocal => "shadowsocks.json"
  | .tail => "log.txt"

/-- What `start_iprotate.sh` has between the path and the interface of ssserver. -/
def startOptions : Str := " -v --outbound-bind-interface "

/-- What `stop_iprotate.sh` has there. -/
def stopOptions : Str := " --outbound-bind-interface "

/-- What stands after the path. -/
def rest (options interface : Str) : Process → Str
  | .threeProxy => []
  | .ssserver => options ++ interface
  | .sslocal => []
  | .tail => []

/-- The directory of a profile, from the first slash on. -/
def directory (name : Str) : Str := "opt/cloud-iprotate/profile_config/" ++ name ++ "/"

theorem inProfile_eq (name f : Str) : inProfile name f = '/' :: (directory name ++ f) := by
  have hhome : home ++ "profile_config/".toList = '/' :: "opt/cloud-iprotate/profile_config/".toList := by
    unfold home
    simp (disch := exact rfl) only [toList_of_eq]
    decide +kernel
  show home ++ "profile_config/".toList ++ name ++ "/".toList ++ f = _
  rw [hhome]
  rfl

theorem append_path (a d f o i : Str) : a ++ '/' :: (d ++ f) ++ o ++ i = a ++ '/' :: (d ++ (f ++ (o ++ i))) := by
  simp only [List.append_assoc, List.cons_append]

theorem stopPattern_eq (name : Str) (q : Process) : stopPattern name q = word q ++ '/' ::
    (directory name ++ (file name q ++ rest stopOptions (interface name) q)) := by
  cases q with
  | threeProxy =>
    show "3proxy ".toList ++ inProfile name (file name .threeProxy) = _
    rw [inProfile_eq, rest, List.append_nil]
    rfl
  | ssserver =>
    show "ssserver -c ".toList ++ inProfile name (file name .ssserver) ++ stopOptions ++ interface name = _
    rw [inProfile_eq]
    exact append_path _ _ _ _ _
  | sslocal =>
    show "sslocal -c ".toList ++ inProfile name (file name .sslocal) = _
    rw [inProfile_eq, rest, List.append_nil]
    rfl
  | tail =>
    show "tail -n1 -f ".toList ++ inProfile name (file name .tail) = _
    rw [inProfile_eq, rest, List.append_nil]
    rfl

/-- The paths of a profile are one word. -/
theorem fields_inProfile (order : Nat) (h : ∀ x ∈ c, isIfs x = false) (p : Process) :
    fields (inProfile (profileName (showNat order) c) (file (profileName (showNat order) c) p)) =
      [inProfile (profileName (showNat order) c) (file (profileName (showNat order) c) p)] := by
  have hname : ∀ x ∈ profileName (showNat order) c, isIfs x = false := not_isIfs_profileName h
  have hhome : ∀ x ∈ home ++ "profile_config/".toList, isIfs x = false := by
    unfold home
    simp (disch := exact rfl) only [toList_of_eq]
    decide +kernel
  have hslash : ∀ x ∈ ("/" : Str), isIfs x = false := by decide
  have hfile : ∀ x ∈ file (profileName (showNat order) c) p, isIfs x = false := by
    cases p with
    | threeProxy =>
      have hp : ∀ x ∈ ("proxy_" : Str), isIfs x = false := by decide
      have hcfg : ∀ x ∈ (".cfg" : Str), isIfs x = false := by decide
      exact not_isIfs_append (not_isIfs_append hp hname) hcfg
    | ssserver => exact (by decide : ∀ x ∈ ("shadowsocks.json" : Str), isIfs x = false)
    | sslocal => exact (by decide : ∀ x ∈ ("shadowsocks.json" : Str), isIfs x = false)
    | tail => exact (by decide : ∀ x ∈ ("log.txt" : Str), isIfs x = false)
  refine fields_plain (not_isIfs_append (not_isIfs_append (not_isIfs_append hhome hname) hslash) hfile) ?_
  rw [inProfile_eq]
  exact List.cons_ne_nil _ _

theorem interface_profileName (h : ∀ x ∈ c, isIfs x = false) : interface (profileName (showNat order) c) =
    interfaceName (showNat order) ((c.takeWhile (· ≠ '_')).takeWhile (· ≠ '.')) := by
  have hconf : ∀ x ∈ (".conf" : Str), isIfs x = false := by decide
  have hdot : '.' ∈ (".conf" : Str) := by decide
  have hplain : ∀ x ∈ interfaceName (showNat order) (c.takeWhile (· ≠ '_')) ++ ".conf".toList, isIfs x = false :=
    not_isIfs_append (not_isIfs_interfaceName (not_isIfs_takeWhile h)) hconf
  rw [interface, wgConfig_profileName h,
    echo_fields hplain (List.append_ne_nil_of_left_ne_nil (interfaceName_ne_nil _ _) _),
    cut_dot (List.mem_append_right _ hdot), takeWhile_interfaceName]

theorem tunnel_interface (order : Nat) (h : ∀ x ∈ c, isIfs x = false) :
    (tunnel (profileName (showNat order) c)).interface =
    [interface (profileName (showNat order) c)] := by
  rw [interface_profileName h]
  exact congrArg Use.interface (tunnel_profileName h)

theorem echo_cons (a b : Str) (words : List Str) : echo (a :: b :: words) = a ++ ' ' :: echo (b :: words) := by
  rw [echo, List.intercalate_cons_cons]
  simp [echo]

theorem echo_singleton (a : Str) : echo [a] = a := List.intercalate_singleton

theorem word_threeProxy : word .threeProxy = "3proxy".toList ++ [' '] := by decide

theorem word_ssserver : word .ssserver = "ssserver".toList ++ ' ' :: ("-c".toList ++ [' ']) := by decide

theorem word_sslocal : word .sslocal = "sslocal".toList ++ ' ' :: ("-c".toList ++ [' ']) := by decide

theorem word_tail : word .tail = "tail".toList ++ ' ' :: ("-n1".toList ++ ' ' :: ("-f".toList ++ [' '])) := by decide

theorem startOptions_eq : startOptions =
    ' ' :: ("-v".toList ++ ' ' :: ("--outbound-bind-interface".toList ++ [' '])) := by decide

theorem commandLine_eq (h : ∀ x ∈ c, isIfs x = false) (p : Process) : commandLine (profileName (showNat order) c) p =
    word p ++ '/' :: (directory (profileName (showNat order) c) ++ (file (profileName (showNat order) c) p ++
      rest startOptions (interface (profileName (showNat order) c)) p)) := by
  have hfields := fields_inProfile order h p
  have hinterface := tunnel_interface order h
  generalize profileName (showNat order) c = name at *
  cases p with
  | threeProxy =>
    show echo ("3proxy".toList :: fields (inProfile name (file name .threeProxy))) = _
    rw [hfields, inProfile_eq, echo_cons, echo_singleton, word_threeProxy]
    simp only [rest, List.append_assoc, List.cons_append, List.nil_append, List.append_nil]
  | ssserver =>
    show echo ("ssserver".toList :: "-c".toList :: (fields (inProfile name (file name .ssserver)) ++
      ("-v".toList :: "--outbound-bind-interface".toList :: (tunnel name).interface))) = _
    rw [hfields, hinterface, inProfile_eq, List.singleton_append]
    rw [echo_cons, echo_cons, echo_cons, echo_cons, echo_cons, echo_singleton, word_ssserver]
    simp only [rest, startOptions_eq, List.append_assoc, List.cons_append, List.nil_append]
  | sslocal =>
    show echo ("sslocal".toList :: "-c".toList :: fields (inProfile name (file name .sslocal))) = _
    rw [hfields, inProfile_eq, echo_cons, echo_cons, echo_singleton, word_sslocal]
    simp only [rest, List.append_assoc, List.cons_append, List.nil_append, List.append_nil]
  | tail =>
    show echo ("tail".toList :: "-n1".toList :: "-f".toList :: fields (inProfile name (file name .tail))) = _
    rw [hfields, inProfile_eq, echo_cons, echo_cons, echo_cons, echo_singleton, word_tail]
    simp only [rest, List.append_assoc, List.cons_append, List.nil_append, List.append_nil]

/-! ## What a pattern finds -/

theorem slash_not_mem (hc : '/' ∉ c) {a : Str} (ha : '/' ∉ a) : '/' ∉ a ++ showNat order ++ "_".toList ++ c := by
  have hu : '/' ∉ ("_" : Str) := by decide
  have hdigit : '/' ∉ showNat order := fun h => by
    have hd : ('/').isDigit = true := mem_toString h
    exact absurd hd (by decide)
  simp only [List.mem_append, not_or]
  exact ⟨⟨⟨ha, hdigit⟩, hu⟩, hc⟩

theorem count_slash (order : Nat) (hc : isProfileName c = true) (p : Process) (options : Str)
    (hoptions : '/' ∉ options) :
    (directory (profileName (showNat order) c) ++ (file (profileName (showNat order) c) p ++
      rest options (interface (profileName (showNat order) c)) p)).count '/' = 4 := by
  have hplain := plain_of_isProfileName hc
  have hslash : '/' ∉ c := fun h => (hplain _ h).2 rfl
  have hname : '/' ∉ profileName (showNat order) c :=
    slash_not_mem hslash (by decide : '/' ∉ ("iprotate_" : Str))
  have hinterface : '/' ∉ interface (profileName (showNat order) c) := by
    rw [interface_profileName fun x hx => (hplain x hx).1]
    exact slash_not_mem (fun h => hslash (List.takeWhile_subset _ (List.takeWhile_subset _ h)))
      (by decide : '/' ∉ ("ip_" : Str))
  have hfile : '/' ∉ file (profileName (showNat order) c) p := by
    cases p with
    | threeProxy =>
      have hp : '/' ∉ ("proxy_" : Str) := by decide
      have hcfg : '/' ∉ (".cfg" : Str) := by decide
      exact fun h => (List.mem_append.1 h).elim (fun h => (List.mem_append.1 h).elim hp hname) hcfg
    | ssserver => exact (by decide : '/' ∉ ("shadowsocks.json" : Str))
    | sslocal => exact (by decide : '/' ∉ ("shadowsocks.json" : Str))
    | tail => exact (by decide : '/' ∉ ("log.txt" : Str))
  have hrest : '/' ∉ rest options (interface (profileName (showNat order) c)) p := by
    cases p with
    | ssserver => exact fun h => (List.mem_append.1 h).elim hoptions hinterface
    | threeProxy => exact List.not_mem_nil
    | sslocal => exact List.not_mem_nil
    | tail => exact List.not_mem_nil
  have hdirectory : (directory (profileName (showNat order) c)).count '/' = 4 := by
    have hhome : ("opt/cloud-iprotate/profile_config/" : Str).count '/' = 3 := by decide
    show ("opt/cloud-iprotate/profile_config/".toList ++ profileName (showNat order) c ++ "/".toList).count '/' = 4
    rw [List.count_append, List.count_append, hhome, List.count_eq_zero.2 hname]
    rfl
  rw [List.count_append, List.count_append, hdirectory, List.count_eq_zero.2 hfile, List.count_eq_zero.2 hrest]

/-- A pattern finds a process of its own kind only, and what follows the first slash must match. -/
theorem here_of_selects {p q : Process} (hc : isProfileName c = true) (hc' : isProfileName c' = true)
    (h : selects (stopPattern (profileName (showNat order) c) q)
      (commandLine (profileName (showNat order') c') p) = true) :
    q = p ∧ here (directory (profileName (showNat order) c) ++ (file (profileName (showNat order) c) q ++
        rest stopOptions (interface (profileName (showNat order) c)) q))
      (directory (profileName (showNat order') c') ++ (file (profileName (showNat order') c') p ++
        rest startOptions (interface (profileName (showNat order') c')) p)) = true := by
  have hword : ∀ p, '/' ∉ word p ∧ '.' ∉ word p := fun p => by cases p <;> decide
  rw [stopPattern_eq, commandLine_eq fun x hx => (plain_of_isProfileName hc' x hx).1] at h
  have hcount := (count_slash order' hc' p startOptions (by decide)).trans
    (count_slash order hc q stopOptions (by decide)).symm
  obtain ⟨hsuffix, hhere⟩ := selects_after (by decide) (hword q).1 (hword q).2 (hword p).1 hcount.le h
  refine ⟨?_, hhere⟩
  cases q <;> cases p <;> first | rfl | exact absurd hsuffix (by decide)

/-- The directory of a profile up to its order. -/
theorem directory_eq (o c : Str) : directory (profileName o c) =
    "opt/cloud-iprotate/profile_config/iprotate_".toList ++ (o ++ '_' :: (c ++ "/".toList)) := by
  have hjoin : ("opt/cloud-iprotate/profile_config/iprotate_" : Str) =
      "opt/cloud-iprotate/profile_config/".toList ++ "iprotate".toList ++ ['_'] := by
    simp (disch := exact rfl) only [toList_of_eq]
    decide +kernel
  show "opt/cloud-iprotate/profile_config/".toList ++ profileName o c ++ "/".toList = _
  rw [profileName_eq, hjoin]
  simp only [List.append_assoc, List.cons_append, List.nil_append]

/-- **A pattern finds no process of a profile with another order.** -/
theorem not_selects_other (hne : order' ≠ order) (hc : isProfileName c = true) (hc' : isProfileName c' = true)
    (p q : Process) :
    selects (stopPattern (profileName (showNat order) c) q)
      (commandLine (profileName (showNat order') c') p) = false := by
  rw [Bool.eq_false_iff]
  intro h
  have hhere := (here_of_selects hc hc' h).2
  rw [directory_eq, directory_eq] at hhere
  simp only [List.append_assoc, List.cons_append] at hhere
  have hpath := here_cancel hhere
  rw [← List.singleton_append, ← List.append_assoc] at hpath
  obtain ⟨a, t, hsplit, hlen, ha, -⟩ := here_append.1 hpath
  have hdigits : ∀ n, '_' ∉ showNat n ∧ '.' ∉ showNat n := fun n =>
    ⟨fun h => (showNat_plain h).1 rfl, fun h => (showNat_plain h).2.1 rfl⟩
  have hdot : '.' ∉ showNat order ++ ['_'] := by simpa using (hdigits order).2
  obtain rfl := ((here_literal hdot).1 ha).eq_of_length hlen.symm
  rw [List.append_assoc] at hsplit
  exact hne (showNat_injective (cons_inj (hdigits order').1 (hdigits order).1 hsplit).1)

/-- **The pattern of ssserver finds nothing**, and no other pattern finds ssserver. -/
theorem ssserver_missed (order : Nat) (hc : isProfileName c = true) (q : Process) :
    selects (stopPattern (profileName (showNat order) c) q) (commandLine (profileName (showNat order) c) .ssserver) =
      false := by
  rw [Bool.eq_false_iff]
  intro h
  obtain ⟨rfl, hhere⟩ := here_of_selects hc hc h
  have hoptions := here_cancel (here_cancel hhere)
  have hstop : stopOptions = ' ' :: '-' :: '-' :: "outbound-bind-interface ".toList := by decide
  have hstart : startOptions = ' ' :: '-' :: 'v' :: " --outbound-bind-interface ".toList := by decide
  rw [rest, rest, hstop, hstart] at hoptions
  simp [here] at hoptions

/-- The other patterns are the command lines. -/
theorem selects_own (hc : isProfileName c = true) {p : Process} (hp : p ≠ .ssserver) :
    selects (stopPattern (profileName (showNat order) c) p) (commandLine (profileName (showNat order) c) p) = true := by
  have hrest : ∀ options interface, rest options interface p = [] := by
    intro options interface
    cases p with
    | ssserver => exact absurd rfl hp
    | threeProxy => rfl
    | sslocal => rfl
    | tail => rfl
  rw [stopPattern_eq, commandLine_eq fun x hx => (plain_of_isProfileName hc x hx).1, hrest, hrest]
  exact selects_self _

/-- **The scripts never agree**: of what is started, ssserver is not stopped, whatever the order and the name are. The
other three processes are stopped, and none of a profile with another order. -/
theorem never_stops_exactly (order : Nat) (c : Str) (hc : isProfileName c = true) :
    ¬StopsExactly order c ∧
      (∀ p, (∃ q, selects (stopPattern (profileName (showNat order) c) q)
        (commandLine (profileName (showNat order) c) p) = true) ↔ p ≠ .ssserver) ∧
      ∀ (order' : Nat) (c' : Str), order' ≠ order → isProfileName c' = true → ∀ p q,
        selects (stopPattern (profileName (showNat order) c) q) (commandLine (profileName (showNat order') c') p) =
          false := by
  refine ⟨fun h => ?_, fun p => ⟨?_, fun hp => ⟨p, selects_own hc hp⟩⟩, fun order' c' hne hc' p q =>
    not_selects_other hne hc hc' p q⟩
  · obtain ⟨q, hq⟩ := h.own .ssserver
    rw [ssserver_missed order hc q] at hq
    cases hq
  · rintro ⟨q, hq⟩ rfl
    rw [ssserver_missed order hc q] at hq
    cases hq

theorem example_not_stopped : ¬StopsExactly 1 "my_vps.2" ∧
    (∀ p, (∃ q, selects (stopPattern (profileName (showNat 1) "my_vps.2") q)
      (commandLine (profileName (showNat 1) "my_vps.2") p) = true) ↔ p ≠ .ssserver) ∧
    ∀ (order' : Nat) (c' : Str), order' ≠ 1 → isProfileName c' = true → ∀ p q,
      selects (stopPattern (profileName (showNat 1) "my_vps.2") q) (commandLine (profileName (showNat order') c') p) =
        false :=
  never_stops_exactly 1 "my_vps.2" (by decide)

/-- The ssserver of a profile `aws1` goes on. -/
theorem ssserver_goes_on : ¬∀ (order : Nat) (c : Str), isProfileName c = true → StopsExactly order c := by
  intro h
  obtain ⟨q, hq⟩ := (h 1 "aws1" (by decide)).own .ssserver
  revert hq
  cases q <;> decide +kernel

end Processes
end Iprotate
