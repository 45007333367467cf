import Iprotate.Built
import Iprotate.Frame
import Iprotate.WhitelistShell

/-!
# The credentials of the two proxies

What the 3proxy file and the shadowsocks files of a profile say about who may use its proxies. 3proxy reads its file
line by line and splits a line at white space; a `users` argument is `login:CL:password`. shadowsocks loads JSON, which
undoes what `json.dumps` did.
-/

namespace Iprotate
namespace Credentials

open ConfigLoader Prog

/-! ## How 3proxy reads its file -/

/-- White space, as `isspace` of C has it. -/
def isBreak (c : Char) : Bool := c = ' ' || (9 ≤ c.toNat && c.toNat ≤ 13)

/-- A directive and its arguments. -/
def words (line : Str) : List Str := (line.splitOnP isBreak).filter (· ≠ [])

/-- The lines that are not blank. -/
def directives (text : Str) : List (List Str) := ((text.splitOn '\n').map words).filter (· ≠ [])

/-- `login:CL:password` -/
def userArg (arg : Str) : Option (Str × Str) :=
  match arg.dropWhile (· ≠ ':') with
  | ':' :: 'C' :: 'L' :: ':' :: password => some (arg.takeWhile (· ≠ ':'), password)
  | _ => none

/-- The pairs of a `users` directive. -/
def usersOf : List Str → List (Str × Str)
  | name :: args => if name = "users".toList then args.filterMap userArg else []
  | [] => []

/-- Who may use a proxy: everybody, or these pairs of login and password. -/
abbrev Auth : Type := Option (List (Str × Str))

def Accepts (a : Auth) (login password : Str) : Prop := ∀ pairs ∈ a, (login, password) ∈ pairs

/-- Who may use the HTTP proxy, by the text of its file. -/
def httpAuth (text : Str) : Auth :=
  if ["auth".toList, "strong".toList] ∈ directives text then some ((directives text).flatMap usersOf) else none

/-! ## How shadowsocks reads its files -/

/-- An entry of an object. -/
def field (key : Str) : Json Empty → Option (Json Empty)
  | .obj entries => Dict.get? entries key
  | _ => none

/-- A pair of the file of users. -/
def credential (v : Json Empty) : Option (Str × Str) :=
  match field "user_name" v, field "password" v with
  | some (.str user), some (.str password) => some (user, password)
  | _, _ => none

/-- The users of the file of users. -/
def usersFile (v : Json Empty) : Option (List (Str × Str)) :=
  match (field "password" v).bind (field "users") with
  | some (.arr users) => some (users.filterMap credential)
  | _ => none

/-- Who may use a proxy, by its entry in the file and the file of users that the entry names. -/
def entryAuth (loads : Str → Option (Json Empty)) (files : Dict Str Str) (entry : Json Empty) : Option Auth :=
  match field "socks5_auth_config_path" entry with
  | none => some none
  | some (.str authPath) => (((files.get? authPath).bind loads).bind usersFile).map some
  | some _ => none

/-- Who may use the SOCKS5 proxy, by its file; `none` if it cannot be read. -/
def socksAuth (loads : Str → Option (Json Empty)) (files : Dict Str Str) (path : Str) : Option Auth :=
  match ((files.get? path).bind loads).bind (field "locals") with
  | some (.arr (entry :: _)) => entryAuth loads files entry
  | _ => none

/-! ## Lines and words -/

theorem not_isBreak_of_mem_splitOnP {s w : Str} (h : w ∈ s.splitOnP isBreak) : ∀ c ∈ w, isBreak c = false := by
  induction s generalizing w with
  | nil =>
    rw [List.splitOnP_nil, List.mem_singleton] at h
    rw [h]
    exact fun _ h => by cases h
  | cons d s ih =>
    rw [List.splitOnP_cons_eq_if_modifyHead] at h
    split at h
    · rcases List.mem_cons.1 h with rfl | h
      · exact fun _ h => by cases h
      · exact ih h
    · rename_i hd
      cases hs : s.splitOnP isBreak with
      | nil => exact absurd hs (List.splitOnP_ne_nil _ _)
      | cons v vs =>
        rw [hs, List.modifyHead_cons] at h
        rw [hs] at ih
        rcases List.mem_cons.1 h with rfl | h
        · intro c hc
          rcases List.mem_cons.1 hc with rfl | hc
          · simpa using hd
          · exact ih List.mem_cons_self c hc
        · exact ih (List.mem_cons_of_mem _ h)

/-- No word has white space. -/
theorem not_isBreak_of_mem_words {s w : Str} (h : w ∈ words s) : ∀ c ∈ w, isBreak c = false :=
  not_isBreak_of_mem_splitOnP (List.mem_filter.1 h).1

/-- The first word of a line. -/
theorem words_cons {w : Str} (hne : w ≠ []) (hw : ∀ c ∈ w, isBreak c = false) {b : Char} (hb : isBreak b = true)
    (t : Str) : words (w ++ b :: t) = w :: words t := by
  rw [words, List.splitOnP_append_cons_of_forall_mem hw b hb, List.filter_cons_of_pos (by simpa using hne), words]

theorem words_single {w : Str} (hne : w ≠ []) (hw : ∀ c ∈ w, isBreak c = false) : words w = [w] := by
  rw [words, List.splitOnP_eq_singleton hw, List.filter_cons_of_pos (by simpa using hne), List.filter_nil]

/-- The directives of a line and of what follows it. -/
theorem directives_cons {line : Str} (h : '\n' ∉ line) (t : Str) : directives (line ++ '\n' :: t) =
    (if words line = [] then [] else [words line]) ++ directives t := by
  rw [directives, List.splitOn_append_cons_self_of_not_mem h, List.map_cons, directives]
  by_cases hw : words line = []
  · rw [List.filter_cons_of_neg (by simpa using hw), if_pos hw, List.nil_append]
  · rw [List.filter_cons_of_pos (by simpa using hw), if_neg hw]
    rfl

theorem directives_append (s t : Str) : directives (s ++ '\n' :: t) = directives s ++ directives t := by
  rw [directives, List.splitOn_append_cons_self, List.map_append, List.filter_append, directives, directives]

/-! ## The text of the 3proxy file -/

/-- The text without its `users` line. -/
def head (profile ip : Str) (port : Int) (auth : Bool) : Str :=
  "nserver 8.8.8.8\nnserver 8.8.4.4\nnscache 65536\nallow *\n" ++
    "logformat \"G%H:%M:%S.%. %d-%m-%y %z  %N.%p %E %U %C:%c %R:%r %O %I %h %T\"\n" ++
    "log \"/opt/cloud-iprotate/profile_config/" ++ profile ++ "/log.txt\"\n" ++
    (if auth then "auth strong\n" else "") ++
    "proxy -n -p" ++ showInt port ++ " -i0.0.0.0 -e" ++ withoutMask ip ++ "\n"

/-- Both are given. -/
def Given (user passwd : Str) : Prop := user ≠ [] ∧ passwd ≠ []

instance (user passwd : Str) : Decidable (Given user passwd) := inferInstanceAs (Decidable (_ ∧ _))

theorem proxyConfigString_eq (profile user passwd ip : Str) (port : Int) :
    proxyConfigString profile user passwd ip port = head profile ip port (decide (Given user passwd)) ++
      if Given user passwd then "users ".toList ++ user ++ ":CL:".toList ++ passwd ++ "\n".toList else [] := by
  unfold proxyConfigString head
  extract_lets auth
  by_cases h : Given user passwd
  · rw [decide_eq_true h, if_pos h, if_pos rfl, if_pos (show auth from h), if_pos (show auth from h)]
  · rw [decide_eq_false h, if_neg h, if_neg Bool.false_ne_true, if_neg (show ¬auth from h),
      if_neg (show ¬auth from h)]

theorem directives_nil : directives [] = [] := by decide

/-- A line that begins with a word and a blank. -/
theorem directives_line {w t : Str} (hne : w ≠ []) (hw : ∀ c ∈ w, isBreak c = false) (ht : '\n' ∉ t) (rest : Str) :
    directives (w ++ ' ' :: t ++ '\n' :: rest) = (w :: words t) :: directives rest := by
  have hline : '\n' ∉ w ++ ' ' :: t := by
    rw [List.mem_append, List.mem_cons, not_or, not_or]
    refine ⟨fun h => ?_, by decide, ht⟩
    exact absurd (hw _ h) (by decide)
  have hwords : words (w ++ ' ' :: t) = w :: words t := words_cons hne hw (by decide) t
  rw [directives_cons hline, hwords, if_neg (List.cons_ne_nil _ _)]
  rfl

/-- The names of the directives of the text without its `users` line. -/
def headNames : List Str := ["nserver", "nscache", "allow", "logformat", "log", "proxy"]

/-- The lines of the text that are always the same. -/
def fixedLines : Str :=
  "nserver 8.8.8.8\nnserver 8.8.4.4\nnscache 65536\nallow *\n" ++
    "logformat \"G%H:%M:%S.%. %d-%m-%y %z  %N.%p %E %U %C:%c %R:%r %O %I %h %T\""

theorem names_fixedLines : ∀ d ∈ directives fixedLines, ∃ name ∈ headNames, ∃ args, d = name :: args := by
  have hall : ∀ d ∈ directives fixedLines, ∃ name ∈ headNames, d.head? = some name := by
    unfold fixedLines headNames
    simp (disch := exact rfl) only [toList_of_eq]
    decide +kernel
  intro d hd
  obtain ⟨name, hname, hhead⟩ := hall d hd
  exact ⟨name, hname, d.tail, (List.cons_head?_tail hhead).symm⟩

/-- What stands after `log`. -/
def logArgs (profile : Str) : Str := "\"/opt/cloud-iprotate/profile_config/".toList ++ profile ++ "/log.txt\"".toList

/-- What stands after `proxy`. -/
def proxyArgs (port : Int) (ip : Str) : Str :=
  "-n -p".toList ++ showInt port ++ " -i0.0.0.0 -e".toList ++ withoutMask ip

/-- The pieces of the text, put together in lines. -/
theorem pieces_eq (nserver logformat log directory profile txt auth proxy options port address ip : Str) :
    nserver ++ (logformat ++ ['\n']) ++ (log ++ ' ' :: directory) ++ profile ++ (txt ++ ['\n']) ++ auth ++
        (proxy ++ ' ' :: options) ++ port ++ address ++ ip ++ ['\n'] =
      nserver ++ logformat ++ '\n' :: (log ++ ' ' :: (directory ++ profile ++ txt) ++ '\n' ::
        (auth ++ (proxy ++ ' ' :: (options ++ port ++ address ++ ip) ++ '\n' :: []))) := by
  simp only [List.append_assoc, List.cons_append, List.nil_append]

/-- The text as its lines. -/
theorem head_eq (profile ip : Str) (port : Int) (auth : Bool) : head profile ip port auth = fixedLines ++ '\n' ::
    ("log".toList ++ ' ' :: logArgs profile ++ '\n' ::
      ((if auth then "auth".toList ++ ' ' :: "strong".toList ++ ['\n'] else []) ++
        ("proxy".toList ++ ' ' :: proxyArgs port ip ++ '\n' :: []))) := by
  have hfixed : ("logformat \"G%H:%M:%S.%. %d-%m-%y %z  %N.%p %E %U %C:%c %R:%r %O %I %h %T\"\n" : Str) =
      "logformat \"G%H:%M:%S.%. %d-%m-%y %z  %N.%p %E %U %C:%c %R:%r %O %I %h %T\"".toList ++ ['\n'] := by
    decide +kernel
  have hlog : ("log \"/opt/cloud-iprotate/profile_config/" : Str) =
      "log".toList ++ ' ' :: "\"/opt/cloud-iprotate/profile_config/".toList := by decide +kernel
  have htxt : ("/log.txt\"\n" : Str) = "/log.txt\"".toList ++ ['\n'] := by decide +kernel
  have hauth : (if auth then "auth strong\n" else "" : String).toList =
      if auth then "auth".toList ++ ' ' :: "strong".toList ++ ['\n'] else [] := by
    cases auth <;> decide +kernel
  have hproxy : ("proxy -n -p" : Str) = "proxy".toList ++ ' ' :: "-n -p".toList := by decide +kernel
  have hend : ("\n" : Str) = ['\n'] := by decide +kernel
  unfold head fixedLines logArgs proxyArgs
  rw [hfixed, hlog, htxt, hauth, hproxy, hend]
  exact pieces_eq ..

/-- **The directives of the text without its `users` line** are the same whatever the credentials are, but for
`auth strong`, which goes with that line. -/
theorem directives_head {profile ip : Str} (port : Int) (hprofile : '\n' ∉ profile) (hip : '\n' ∉ ip) :
    ∃ before after, (∀ d ∈ before ++ after, ∃ name ∈ headNames, ∃ args, d = name :: args) ∧
      ∀ auth, directives (head profile ip port auth) =
        before ++ (if auth then [["auth".toList, "strong".toList]] else []) ++ after := by
  have hlog : '\n' ∉ logArgs profile := by
    have h₁ : '\n' ∉ ("\"/opt/cloud-iprotate/profile_config/" : Str) ∧ '\n' ∉ ("/log.txt\"" : Str) := by decide +kernel
    intro h
    rcases List.mem_append.1 h with h | h
    · exact (List.mem_append.1 h).elim h₁.1 hprofile
    · exact h₁.2 h
  have hproxy : '\n' ∉ proxyArgs port ip := by
    have h₁ : '\n' ∉ ("-n -p" : Str) ∧ '\n' ∉ (" -i0.0.0.0 -e" : Str) := by decide +kernel
    have hport : '\n' ∉ showInt port := fun h => absurd (Firewall.isMeta_showInt port _ h) (by decide)
    intro h
    rcases List.mem_append.1 h with h | h
    · rcases List.mem_append.1 h with h | h
      · exact (List.mem_append.1 h).elim h₁.1 hport
      · exact h₁.2 h
    · exact hip (List.takeWhile_subset _ h)
  have hlogWord : ("log" : Str) ≠ [] ∧ ∀ c ∈ ("log" : Str), isBreak c = false := by decide
  have hauthWord : ("auth" : Str) ≠ [] ∧ ∀ c ∈ ("auth" : Str), isBreak c = false := by decide
  have hproxyWord : ("proxy" : Str) ≠ [] ∧ ∀ c ∈ ("proxy" : Str), isBreak c = false := by decide
  have hstrong : words "strong" = ["strong".toList] := by decide
  refine ⟨directives fixedLines ++ ["log".toList :: words (logArgs profile)],
    ["proxy".toList :: words (proxyArgs port ip)], fun d hd => ?_, fun auth => ?_⟩
  · rcases List.mem_append.1 hd with hd | hd
    · rcases List.mem_append.1 hd with hd | hd
      · exact names_fixedLines d hd
      · exact ⟨_, by decide, _, List.mem_singleton.1 hd⟩
    · exact ⟨_, by decide, _, List.mem_singleton.1 hd⟩
  · have hproxyLine := directives_line hproxyWord.1 hproxyWord.2 hproxy []
    have hauthLine : ∀ rest,
        directives ((if auth then "auth".toList ++ ' ' :: "strong".toList ++ ['\n'] else []) ++ rest) =
        (if auth then [["auth".toList, "strong".toList]] else []) ++ directives rest := by
      intro rest
      cases auth with
      | false => rfl
      | true =>
        have h := directives_line (t := "strong") hauthWord.1 hauthWord.2 (by decide) rest
        rw [hstrong] at h
        rw [if_pos rfl, if_pos rfl, List.append_assoc]
        exact h
    rw [head_eq, directives_append, directives_line hlogWord.1 hlogWord.2 hlog, hauthLine,
      hproxyLine, directives_nil]
    generalize "log".toList :: words (logArgs profile) = logLine
    generalize "proxy".toList :: words (proxyArgs port ip) = proxyLine
    rw [List.append_assoc, List.append_assoc]
    rfl

theorem directives_head_append (profile ip : Str) (port : Int) (auth : Bool) (t : Str) :
    directives (head profile ip port auth ++ t) = directives (head profile ip port auth) ++ directives t := by
  have hend : ("\n" : Str) = ['\n'] := by decide
  have hlast : ∃ u, head profile ip port auth = u ++ '\n' :: [] := by
    unfold head
    rw [hend]
    exact ⟨_, rfl⟩
  obtain ⟨u, hu⟩ := hlast
  rw [hu, List.append_assoc, List.cons_append, List.nil_append, directives_append, directives_append, directives_nil,
    List.append_nil]

/-! ## The users line -/

/-- The pair can be told from the text `user:CL:passwd`. -/
def Separable (user passwd : Str) : Prop :=
  (∀ c ∈ user, isBreak c = false) ∧ (∀ c ∈ passwd, isBreak c = false) ∧ ':' ∉ user

instance (user passwd : Str) : Decidable (Separable user passwd) := inferInstanceAs (Decidable (_ ∧ _))

/-- The line that holds the credentials. -/
def usersLine (user passwd : Str) : Str := "users ".toList ++ user ++ ":CL:".toList ++ passwd ++ "\n".toList

variable {user passwd : Str}

theorem userArg_pair (h : ':' ∉ user) (passwd : Str) :
    userArg (user ++ ":CL:".toList ++ passwd) = some (user, passwd) := by
  have hcl : (":CL:" : Str) = ':' :: 'C' :: 'L' :: ':' :: [] := by decide
  have hall : ∀ c ∈ user, decide (c ≠ ':') = true := fun c hc => decide_eq_true fun he => h (he ▸ hc)
  rw [hcl, List.append_assoc, userArg, List.dropWhile_append_of_pos hall, List.takeWhile_append_of_pos hall]
  simp

/-- What a pair that is found looks like. -/
theorem of_userArg {arg login password : Str} (h : userArg arg = some (login, password)) :
    ':' ∉ login ∧ (∀ c ∈ login, c ∈ arg) ∧ ∀ c ∈ password, c ∈ arg := by
  unfold userArg at h
  split at h
  · rename_i rest hdrop
    obtain ⟨rfl, rfl⟩ : arg.takeWhile (· ≠ ':') = login ∧ rest = password := by simpa using h
    refine ⟨fun hm => ?_, fun c hc => (List.takeWhile_subset _ hc), fun c hc => ?_⟩
    · simpa using List.mem_takeWhile_imp hm
    · refine (List.dropWhile_suffix (· ≠ ':')).subset ?_
      rw [hdrop]
      exact List.mem_cons_of_mem _ (List.mem_cons_of_mem _ (List.mem_cons_of_mem _ (List.mem_cons_of_mem _ hc)))
  · cases h

/-- A pair that a text lets in can be told from `login:CL:password`. -/
theorem separable_of_mem {text login password : Str} (h : (login, password) ∈ (directives text).flatMap usersOf) :
    Separable login password := by
  obtain ⟨d, hd, hpair⟩ := List.mem_flatMap.1 h
  obtain ⟨line, -, rfl⟩ := List.mem_map.1 (List.mem_filter.1 hd).1
  cases hwords : words line with
  | nil =>
    rw [hwords] at hpair
    cases hpair
  | cons name args =>
    rw [hwords, usersOf] at hpair
    split at hpair
    · obtain ⟨arg, harg, hpair⟩ := List.mem_filterMap.1 hpair
      obtain ⟨hcolon, hlogin, hpassword⟩ := of_userArg hpair
      have hbreak := not_isBreak_of_mem_words (s := line) (w := arg) (hwords ▸ List.mem_cons_of_mem _ harg)
      exact ⟨fun c hc => hbreak c (hlogin c hc), fun c hc => hbreak c (hpassword c hc), hcolon⟩
    · cases hpair

theorem directives_usersLine (h : Separable user passwd) :
    directives (usersLine user passwd) = [["users".toList, user ++ ":CL:".toList ++ passwd]] := by
  have husers : ("users " : Str) = "users".toList ++ [' '] := by decide
  have hend : ("\n" : Str) = ['\n'] := by decide
  have hcl : ∀ c ∈ (":CL:" : Str), isBreak c = false := by decide
  have hword : ("users" : Str) ≠ [] ∧ ∀ c ∈ ("users" : Str), isBreak c = false := by decide
  have harg : ∀ c ∈ user ++ ":CL:".toList ++ passwd, isBreak c = false := by
    intro c hc
    rcases List.mem_append.1 hc with hc | hc
    · exact (List.mem_append.1 hc).elim (h.1 c) (hcl c)
    · exact h.2.1 c hc
  have hne : user ++ ":CL:".toList ++ passwd ≠ [] := by
    have hclne : (":CL:" : Str) ≠ [] := by decide
    exact List.append_ne_nil_of_left_ne_nil (List.append_ne_nil_of_right_ne_nil _ hclne) _
  have hline : usersLine user passwd =
      "users".toList ++ ' ' :: (user ++ ":CL:".toList ++ passwd) ++ '\n' :: [] := by
    show "users ".toList ++ user ++ ":CL:".toList ++ passwd ++ "\n".toList = _
    rw [husers, hend]
    simp only [List.append_assoc, List.cons_append, List.nil_append]
  rw [hline, directives_line hword.1 hword.2 (fun hm => absurd (harg _ hm) (by decide)), words_single hne harg,
    directives_nil]

/-! ## The HTTP proxy -/

/-- Directives about who may use the proxy. -/
def aboutUsers (d : List Str) : Bool := d.head? = some "users".toList || d.head? = some "auth".toList

theorem proxyConfigString_of_not_given (h : ¬ Given user passwd) (profile ip : Str) (port : Int) :
    proxyConfigString profile user passwd ip port = head profile ip port false := by
  rw [proxyConfigString_eq, if_neg h, decide_eq_false h, List.append_nil]

/-- The directives of the whole text. -/
theorem directives_proxyConfigString (profile ip : Str) (port : Int) (user passwd : Str) :
    directives (proxyConfigString profile user passwd ip port) =
      directives (head profile ip port (decide (Given user passwd))) ++
        if Given user passwd then directives (usersLine user passwd) else [] := by
  rw [proxyConfigString_eq, directives_head_append]
  by_cases h : Given user passwd
  · rw [if_pos h, if_pos h]
    rfl
  · rw [if_neg h, if_neg h, directives_nil]

/-- No directive of the text without its `users` line lets somebody in. -/
theorem usersOf_head {d : List Str} (h : ∃ name ∈ headNames, ∃ args, d = name :: args) :
    usersOf d = [] ∧ aboutUsers d = false := by
  obtain ⟨name, hname, args, rfl⟩ := h
  have hnames : ∀ name ∈ headNames, name ≠ "users".toList ∧ name ≠ "auth".toList := by decide
  obtain ⟨husers, hauth⟩ := hnames name hname
  refine ⟨if_neg husers, ?_⟩
  rw [aboutUsers, List.head?_cons, decide_eq_false (mt Option.some.inj husers),
    decide_eq_false (mt Option.some.inj hauth)]
  rfl

theorem flatMap_usersOf_head {ds : List (List Str)} (h : ∀ d ∈ ds, ∃ name ∈ headNames, ∃ args, d = name :: args) :
    ds.flatMap usersOf = [] := by
  rw [List.flatMap_eq_nil_iff]
  exact fun d hd => (usersOf_head (h d hd)).1

theorem filter_head {ds : List (List Str)} (h : ∀ d ∈ ds, ∃ name ∈ headNames, ∃ args, d = name :: args) :
    ds.filter (fun d => !aboutUsers d) = ds ∧ ds.filter aboutUsers = [] := by
  rw [List.filter_eq_self, List.filter_eq_nil_iff]
  refine ⟨fun d hd => ?_, fun d hd => ?_⟩
  · rw [(usersOf_head (h d hd)).2]
    rfl
  · rw [(usersOf_head (h d hd)).2]
    exact Bool.false_ne_true

section http

variable {profile ip : Str} (port : Int) (hprofile : '\n' ∉ profile) (hip : '\n' ∉ ip)

include hprofile hip

/-- Without credentials everybody is let in. -/
theorem httpAuth_of_not_given (h : ¬ Given user passwd) :
    httpAuth (proxyConfigString profile user passwd ip port) = none := by
  obtain ⟨before, after, hnames, hhead⟩ := directives_head port hprofile hip
  have hds : directives (proxyConfigString profile user passwd ip port) = before ++ after := by
    rw [directives_proxyConfigString, hhead, if_neg h, decide_eq_false h, List.append_nil]
    simp
  refine if_neg fun hm => ?_
  rw [hds] at hm
  obtain ⟨name, hname, args, heq⟩ := hnames _ hm
  cases heq
  exact absurd hname (by decide)

/-- With credentials, those whom the `users` line lets in. -/
theorem httpAuth_of_given (h : Given user passwd) : httpAuth (proxyConfigString profile user passwd ip port) =
    some ((directives (usersLine user passwd)).flatMap usersOf) := by
  obtain ⟨before, after, hnames, hhead⟩ := directives_head port hprofile hip
  have hauth : usersOf ["auth".toList, "strong".toList] = [] := by decide
  have hds : directives (proxyConfigString profile user passwd ip port) =
      before ++ [["auth".toList, "strong".toList]] ++ after ++ directives (usersLine user passwd) := by
    rw [directives_proxyConfigString, hhead, if_pos h, decide_eq_true h, if_pos rfl]
  have hbefore := flatMap_usersOf_head fun d hd => hnames d (List.mem_append_left _ hd)
  have hafter := flatMap_usersOf_head fun d hd => hnames d (List.mem_append_right _ hd)
  have hmem : ["auth".toList, "strong".toList] ∈ directives (proxyConfigString profile user passwd ip port) := by
    rw [hds]
    simp
  rw [httpAuth, if_pos hmem, hds, List.flatMap_append, List.flatMap_append, List.flatMap_append, hbefore, hafter,
    List.flatMap_singleton, hauth]
  rfl

/-- The directives that are not about users are the same whatever the credentials are, if the pair can be told from its
line. -/
theorem filter_directives (h : Given user passwd → Separable user passwd) :
    (directives (proxyConfigString profile user passwd ip port)).filter (fun d => !aboutUsers d) =
        directives (head profile ip port false) ∧
      ∃ arg, (directives (proxyConfigString profile user passwd ip port)).filter aboutUsers =
        if Given user passwd then [["auth".toList, "strong".toList], ["users".toList, arg]] else [] := by
  obtain ⟨before, after, hnames, hhead⟩ := directives_head port hprofile hip
  obtain ⟨hbefore, hbefore'⟩ := filter_head fun d hd => hnames d (List.mem_append_left _ hd)
  obtain ⟨hafter, hafter'⟩ := filter_head fun d hd => hnames d (List.mem_append_right _ hd)
  have hauth : aboutUsers ["auth".toList, "strong".toList] = true := by decide
  have husers : ∀ arg, aboutUsers ["users".toList, arg] = true := fun arg => by
    rw [aboutUsers, List.head?_cons, decide_eq_true rfl]
    rfl
  rw [directives_proxyConfigString, hhead, hhead]
  by_cases hg : Given user passwd
  · rw [if_pos hg, decide_eq_true hg, if_pos rfl, directives_usersLine (h hg)]
    refine ⟨?_, user ++ ":CL:".toList ++ passwd, ?_⟩
    · simp only [List.filter_append, hbefore, hafter, List.filter_cons, hauth, husers, List.filter_nil]
      simp
    · simp only [List.filter_append, hbefore', hafter', List.filter_cons, hauth, husers, List.filter_nil, if_pos hg]
      simp
  · rw [if_neg hg, decide_eq_false hg]
    refine ⟨?_, [], ?_⟩
    · simp [List.filter_append, hbefore, hafter]
    · simp [List.filter_append, hbefore', hafter', hg]

end http

end Credentials
end Iprotate
