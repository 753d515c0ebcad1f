import PayOps.Faults
import PayOps.Text.Occurrences

/-!
# Prompts of the local model

`framed_prompt` of `payops.orchestrator.local_llama`.

## The model

A message has the class of its role and a content, which is a text or something else. The host's pieces of
the template are `opening`, `between` and `closing`.

## What is proved

* `framed_prompt_unforgeable` — a prompt has the delimiters at the host's positions only, and its contents can
  be read back from it.
-/

namespace PayOps.Orchestrator.LocalLlama

open Text

/-! ### The source -/

/-- `MODEL`. -/
def qwen3Model : String := "payops-qwen3-1.7b-q4-k-m"

/-- `QWEN25_MODEL`. -/
def qwen25Model : String := "payops-qwen2.5-3b-instruct-q4-k-m"

/-- `LOCAL_MODELS`. -/
def localModels : List String := [qwen3Model, qwen25Model]

/-- The class of a message. -/
inductive Role where
  /-- `SystemMessage`. -/
  | system
  /-- `HumanMessage`. -/
  | human
  /-- Any other class of messages, also one derived from these. -/
  | other
  deriving DecidableEq

/-- The content of a message. -/
inductive Content where
  /-- A text. -/
  | text (s : String)
  /-- A list of parts. -/
  | parts

/-- `BaseMessage`. -/
structure Message where
  /-- `type(message)`. -/
  role : Role
  /-- `content`. -/
  content : Content

/-- The delimiter before a role. -/
def imStart : String := "<|im_start|>"

/-- The delimiter after a content. -/
def imEnd : String := "<|im_end|>"

/-- The end of a text. -/
def endOfText : String := "<|endoftext|>"

/-- The texts that a content does not contain. -/
def tokens : List String := [imStart, imEnd, endOfText]

/-- The content of a message, as it is checked. -/
def checked (message : Message) : Except Fault String :=
  match message.content with
  | .text s =>
    if s.length = 0 ∨ 32768 < s.length ∨ ∃ token ∈ tokens, token.toList <:+: s.toList then
      .error (.value "invalid local model prompt")
    else .ok s
  | .parts => .error (.value "invalid local model prompt")

/-- The host's text before the first content. -/
def opening : String := "<|im_start|>system\n"

/-- The host's text between the contents. -/
def between : String := "<|im_end|>\n<|im_start|>user\n"

/-- The host's text after the second content. -/
def closing : String := "<|im_end|>\n<|im_start|>assistant\n"

/-- The answer of a model that does not think, as far as it is given. -/
def thought (model : String) : String := if model = qwen3Model then "<think>\n\n</think>\n\n" else ""

/-- `framed_prompt`. -/
def framedPrompt (messages : List Message) (model : String) : Except Fault String :=
  match messages with
  | [first, second] =>
    if model ∉ localModels ∨ first.role ≠ .system ∨ second.role ≠ .human then
      .error (.value "local model requires fixed host roles")
    else do
      let system ← checked first
      let user ← checked second
      return opening ++ system ++ between ++ user ++ closing ++ thought model
  | _ => .error (.value "local model requires fixed host roles")

/-! ### Contents -/

/-- A content that the checks let through. -/
structure Plain (s : String) : Prop where
  /-- It is not empty. -/
  nonempty : s.length ≠ 0
  /-- It is not too long. -/
  length : s.length ≤ 32768
  /-- It has none of the delimiters. -/
  tokens : ∀ token ∈ tokens, ¬ token.toList <:+: s.toList

theorem checked_ok {message : Message} {s : String} (h : checked message = .ok s) :
    message.content = .text s ∧ Plain s := by
  unfold checked at h
  split at h
  · rename_i t hcontent
    split_ifs at h with hcheck
    cases h
    push Not at hcheck
    exact ⟨hcontent, hcheck.1, hcheck.2.1, hcheck.2.2⟩
  · cases h

theorem framedPrompt_ok {messages : List Message} {model prompt : String}
    (h : framedPrompt messages model = .ok prompt) :
    ∃ system user, messages = [⟨.system, .text system⟩, ⟨.human, .text user⟩] ∧ Plain system ∧ Plain user ∧
      prompt = opening ++ system ++ between ++ user ++ closing ++ thought model := by
  unfold framedPrompt at h
  split at h
  · rename_i first second
    split_ifs at h with hroles
    push Not at hroles
    obtain ⟨system, hfirst, h⟩ := bind_eq_ok.mp h
    obtain ⟨user, hsecond, h⟩ := bind_eq_ok.mp h
    cases h
    obtain ⟨hsystem, hplain⟩ := checked_ok hfirst
    obtain ⟨huser, hplain'⟩ := checked_ok hsecond
    obtain ⟨role, content⟩ := first
    obtain ⟨role', content'⟩ := second
    obtain ⟨-, rfl, rfl⟩ := hroles
    obtain rfl := hsystem
    obtain rfl := huser
    exact ⟨system, user, rfl, hplain, hplain', rfl⟩
  · cases h

/-! ### Delimiters -/

/-- The occurrences of a delimiter in a text around two contents without it: a content is cut off by the end
of the line before it and by the delimiter after it. -/
theorem occurrences_framed {d : List Char} (hopen : '<' ∉ d) (hline : '\n' ∉ d) {a b : List Char}
    (ha : ¬ '<' :: d <:+: a) (hb : ¬ '<' :: d <:+: b) (A B C : List Char) :
    occurrences ('<' :: d) (A ++ '\n' :: (a ++ '<' :: (B ++ '\n' :: (b ++ '<' :: C)))) =
      occurrences ('<' :: d) A ++ (occurrences ('<' :: d) ('<' :: B)).map (· + (A.length + a.length + 1)) ++
        (occurrences ('<' :: d) ('<' :: C)).map (· + (A.length + a.length + B.length + b.length + 3)) := by
  have hcontent : ∀ {c : List Char}, ¬ '<' :: d <:+: c → ∀ ys, occurrences ('<' :: d) ('\n' :: (c ++ '<' :: ys)) =
      (occurrences ('<' :: d) ('<' :: ys)).map (· + (c.length + 1)) := by
    intro c hc ys
    rw [occurrences_cons (by decide), occurrences_cut hopen, occurrences_eq_nil (by simp) hc]
    simp [Function.comp_def, Nat.add_assoc]
  rw [occurrences_cut hline, hcontent ha, ← List.cons_append, occurrences_cut hline, hcontent hb]
  simp only [List.map_append, List.map_map, List.append_assoc, List.length_cons, Function.comp_def]
  congr 2
  · exact List.map_congr_left fun i _ => by omega
  · exact List.map_congr_left fun i _ => by omega

/-- The characters of a prompt. -/
theorem prompt_toList (system user model : String) :
    (opening ++ system ++ between ++ user ++ closing ++ thought model).toList =
      "<|im_start|>system".toList ++ '\n' :: (system.toList ++ '<' :: ("|im_end|>\n<|im_start|>user".toList ++ '\n' ::
        (user.toList ++ '<' :: ("|im_end|>\n<|im_start|>assistant\n".toList ++ (thought model).toList)))) := by
  simp [opening, between, closing]

theorem length_opening : opening.length = 19 := by decide +kernel

theorem length_between : between.length = 28 := by decide +kernel

theorem length_imEnd : imEnd.length = 10 := by decide +kernel

section Positions

variable {system user : String} (hsystem : Plain system) (huser : Plain user) (model : String)
include hsystem huser

theorem occurrences_imStart :
    occurrences imStart.toList (opening ++ system ++ between ++ user ++ closing ++ thought model).toList =
      [0, system.length + 30, system.length + user.length + 58] := by
  have hs := hsystem.tokens imStart (by decide)
  have hu := huser.tokens imStart (by decide)
  have hword : imStart.toList = '<' :: "|im_start|>".toList := by decide
  have hclosing : occurrences ('<' :: "|im_start|>".toList)
      ('<' :: ("|im_end|>\n<|im_start|>assistant\n".toList ++ (thought model).toList)) = [11] := by
    unfold thought
    split_ifs <;> decide +kernel
  rw [hword] at hs hu ⊢
  rw [prompt_toList, occurrences_framed (by decide) (by decide) hs hu, hclosing]
  have hopening : occurrences ('<' :: "|im_start|>".toList) "<|im_start|>system".toList = [0] := by decide +kernel
  have hbetween : occurrences ('<' :: "|im_start|>".toList) ('<' :: "|im_end|>\n<|im_start|>user".toList) = [11] := by
    decide +kernel
  rw [hopening, hbetween]
  simp [String.length_toList]
  omega

theorem occurrences_imEnd :
    occurrences imEnd.toList (opening ++ system ++ between ++ user ++ closing ++ thought model).toList =
      [system.length + 19, system.length + user.length + 47] := by
  have hs := hsystem.tokens imEnd (by decide)
  have hu := huser.tokens imEnd (by decide)
  have hword : imEnd.toList = '<' :: "|im_end|>".toList := by decide
  have hclosing : occurrences ('<' :: "|im_end|>".toList)
      ('<' :: ("|im_end|>\n<|im_start|>assistant\n".toList ++ (thought model).toList)) = [0] := by
    unfold thought
    split_ifs <;> decide +kernel
  rw [hword] at hs hu ⊢
  rw [prompt_toList, occurrences_framed (by decide) (by decide) hs hu, hclosing]
  have hopening : occurrences ('<' :: "|im_end|>".toList) "<|im_start|>system".toList = [] := by decide +kernel
  have hbetween : occurrences ('<' :: "|im_end|>".toList) ('<' :: "|im_end|>\n<|im_start|>user".toList) = [0] := by
    decide +kernel
  rw [hopening, hbetween]
  simp [String.length_toList]
  omega

end Positions

/-- The contents of a prompt, between its delimiters. -/
theorem contents_eq {system user system' user' model : String} (hsystem : Plain system) (huser : Plain user)
    (hsystem' : Plain system') (huser' : Plain user')
    (h : opening ++ system ++ between ++ user ++ closing ++ thought model =
      opening ++ system' ++ between ++ user' ++ closing ++ thought model) : system = system' ∧ user = user' := by
  -- The ends of the contents are where the delimiters are.
  have hpositions := occurrences_imEnd hsystem huser model
  rw [h, occurrences_imEnd hsystem' huser' model] at hpositions
  simp only [List.cons.injEq, and_true] at hpositions
  have hlist := congrArg String.toList h
  simp only [String.toList_append, List.append_assoc, List.append_cancel_left_eq] at hlist
  have hlength : system.toList.length = system'.toList.length := by
    rw [String.length_toList, String.length_toList]
    omega
  obtain ⟨hs, hrest⟩ := List.append_inj hlist hlength
  simp only [List.append_cancel_left_eq] at hrest
  have hlength' : user.toList.length = user'.toList.length := by
    rw [String.length_toList, String.length_toList]
    omega
  exact ⟨String.toList_inj.mp hs, String.toList_inj.mp (List.append_inj hrest hlength').1⟩

/-- **Local prompts cannot forge a role.** For each model a prompt has one pair of contents, and the delimiters
occur in it exactly where the host's text puts them. -/
theorem framed_prompt_unforgeable (model : String) :
    (∀ messages messages' prompt, framedPrompt messages model = .ok prompt →
      framedPrompt messages' model = .ok prompt → messages = messages') ∧
    ∀ messages prompt, framedPrompt messages model = .ok prompt →
      ∃ system user, messages = [⟨.system, .text system⟩, ⟨.human, .text user⟩] ∧
        occurrences imStart.toList prompt.toList =
          [0, (opening ++ system ++ imEnd ++ "\n").length,
            (opening ++ system ++ between ++ user ++ imEnd ++ "\n").length] ∧
        occurrences imEnd.toList prompt.toList =
          [(opening ++ system).length, (opening ++ system ++ between ++ user).length] := by
  refine ⟨fun messages messages' prompt h h' => ?_, fun messages prompt h => ?_⟩
  · obtain ⟨system, user, rfl, hsystem, huser, hprompt⟩ := framedPrompt_ok h
    obtain ⟨system', user', rfl, hsystem', huser', hprompt'⟩ := framedPrompt_ok h'
    obtain ⟨rfl, rfl⟩ := contents_eq hsystem huser hsystem' huser' (hprompt.symm.trans hprompt')
    rfl
  · obtain ⟨system, user, rfl, hsystem, huser, rfl⟩ := framedPrompt_ok h
    refine ⟨system, user, rfl, ?_, ?_⟩
    · rw [occurrences_imStart hsystem huser]
      have hline : "\n".length = 1 := by decide +kernel
      simp only [String.length_append, length_opening, length_between, length_imEnd, hline]
      simp
      omega
    · rw [occurrences_imEnd hsystem huser]
      simp only [String.length_append, length_opening, length_between]
      simp
      omega

end PayOps.Orchestrator.LocalLlama
