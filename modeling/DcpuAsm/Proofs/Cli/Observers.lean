import DcpuAsm.Proofs.AcceptanceLog
import DcpuAsm.Proofs.Cli.AtomicRun

/-!
What verbosity and the listing do to a run: they decide what is printed, and nothing else. Behind its
arguments a run tells the same at each verbosity (`runOn_heard`), and a threshold shows all that a
more severe one shows (`Output.shownAt_mono`). The listing is told behind the number of statements
that were read and in front of what is told of the file that was written (`Options.Ends.showing`).
Nothing is told twice (`Options.Ends.nodup_outputs`), so what the clock stamps on a record may go by
the record. Main statement: `runOn_observed`, exit code and files depend on neither verbosity nor
listing, and what is printed depends on them as far as was asked for.
-/

namespace DcpuAsm

variable {width : String → Nat} {stamp : Record → String} {disk : Disk} {o : Options} {f : Folder}
variable {src : String} {p : Program} {outcome : Outcome} {low high : Level} {v w : Nat}

/-! ### What is shown -/

/-- Is something told shown at a threshold? A listing always is. -/
def Output.shownAt (threshold : Level) : Output → Bool
  | .record r => r.shownAt threshold
  | .listing _ => true

/-- The text of something told where it is shown. -/
def Output.whole (stamp : Record → String) : Output → String
  | .record r => r.text (stamp r)
  | .listing text => text ++ "\n"

/-- What a run shows, in order. -/
def Options.printed (width : String → Nat) (disk : Disk) (o : Options) (f : Folder) : List Output :=
  (o.runOn width disk f).outputs.filter (Output.shownAt o.threshold)

/-- What a run prints. -/
def Options.stdout (width : String → Nat) (stamp : Record → String) (disk : Disk) (o : Options)
    (f : Folder) : String :=
  transcript stamp o.threshold (o.runOn width disk f).outputs

/-- A run tells nothing twice, so that what it tells may be stamped by what it is. -/
theorem Options.Ends.nodup_outputs (h : o.Ends width disk f outcome) : outcome.outputs.Nodup := by
  cases h with
  | unreadable => simp [Options.unreadable, arguments, say]
  | refused => simp [Options.refused, arguments, say]
  | accepted =>
    rw [told]
    split <;> simp [counted, arguments, say, Program.countRecord]
  | @saved p name =>
    -- Only the two records of one severity could be equal, and they start differently.
    have hne : p.countText ++ " from `" ++ o.input ≠ "wrote canonical source to `" ++ name := by
      intro heq
      have hhead := congrArg (fun text => text.toList.head?) heq
      simp [Program.countText] at hhead
    rw [told]
    split <;> simpa [counted, arguments, say, Program.countRecord, conclude] using hne
  | unsaved =>
    rw [told]
    split <;> simp [counted, arguments, say, Program.countRecord, conclude]

theorem transcript_append (stamp : Record → String) (t : Level) (as bs : List Output) :
    transcript stamp t (as ++ bs) = transcript stamp t as ++ transcript stamp t bs := by
  rw [transcript, List.map_append, String.join_append]
  rfl

/-- Things told are printed whole or not at all. -/
theorem Output.text_eq (stamp : Record → String) (t : Level) (x : Output) :
    x.text stamp t = if x.shownAt t then x.whole stamp else "" := by
  cases x <;> rfl

theorem transcript_eq_join (stamp : Record → String) (t : Level) (outputs : List Output) :
    transcript stamp t outputs =
      .join ((outputs.filter (Output.shownAt t)).map (Output.whole stamp)) := by
  induction outputs with
  | nil => rfl
  | cons x outputs ih =>
    rw [transcript, List.map_cons, String.join_cons, Output.text_eq, List.filter_cons]
    split
    · rw [List.map_cons, String.join_cons, ← ih]
      rfl
    · rw [← ih, String.empty_append]
      rfl

/-- What is shown at a threshold is shown at each that is less severe. -/
theorem Output.shownAt_mono (h : low.rank ≤ high.rank) {x : Output} (hx : x.shownAt low = true) :
    x.shownAt high = true := by
  cases x with
  | record r =>
    rw [Output.shownAt, Record.shownAt, decide_eq_true_eq] at hx ⊢
    exact hx.trans h
  | listing text => rfl

theorem filter_shownAt_filter (h : low.rank ≤ high.rank) (outputs : List Output) :
    (outputs.filter (Output.shownAt high)).filter (Output.shownAt low) =
      outputs.filter (Output.shownAt low) := by
  rw [List.filter_filter]
  refine List.filter_congr fun x _ => ?_
  rw [Bool.and_eq_left_iff_imp]
  exact Output.shownAt_mono h

theorem rank_ofVerbosity_mono (h : v ≤ w) :
    (Level.ofVerbosity v).rank ≤ (Level.ofVerbosity w).rank := by
  rw [rank_ofVerbosity, rank_ofVerbosity]
  omega

/-! ### Verbosity -/

/-- The same run, asked to tell more or less. -/
def Options.heard (verbosity : Nat) (o : Options) : Options := { o with verbosity }

/-- An outcome that tells of other arguments. -/
def Outcome.withArguments (o : Options) (outcome : Outcome) : Outcome :=
  { outcome with outputs := o.arguments :: outcome.outputs.tail }

theorem outputs_withArguments (o : Options) (outcome : Outcome) :
    (outcome.withArguments o).outputs = o.arguments :: outcome.outputs.tail := rfl

theorem threshold_heard (v : Nat) (o : Options) : (o.heard v).threshold = .ofVerbosity v := rfl

theorem Options.Ends.heard (h : o.Ends width disk f outcome) (v : Nat) :
    (o.heard v).Ends width disk f (outcome.withArguments (o.heard v)) := by
  cases h with
  | unreadable hread => exact .unreadable hread
  | refused hread hparse => exact .refused hread hparse
  | accepted hyields houtput => exact .accepted hyields houtput
  | saved hyields houtput hwrite => exact .saved hyields houtput hwrite
  | unsaved hyields houtput hwrite => exact .unsaved hyields houtput hwrite

/-- Verbosity reaches what a run tells of its arguments, and no more of its outcome. -/
theorem runOn_heard (width : String → Nat) (disk : Disk) (o : Options) (f : Folder) (v : Nat) :
    (o.heard v).runOn width disk f = (o.runOn width disk f).withArguments (o.heard v) :=
  ((runOn_ends width disk o f).heard v).runOn_eq

theorem ofVerbosity_of_three_le (h : 3 ≤ v) : Level.ofVerbosity v = .debug := by
  obtain ⟨n, rfl⟩ := Nat.exists_eq_add_of_le' h
  rfl

/-- The threshold that the arguments name is the same at all verbosities that show them. -/
theorem arguments_heard (hv : 3 ≤ v) (hw : 3 ≤ w) :
    (o.heard v).arguments = (o.heard w).arguments := by
  rw [Options.arguments, Options.arguments, threshold_heard, threshold_heard,
    ofVerbosity_of_three_le hv, ofVerbosity_of_three_le hw]
  rfl

theorem arguments_hidden (hv : ¬ 3 ≤ v) (o : Options) :
    ¬ o.arguments.shownAt (.ofVerbosity v) = true := by
  rw [Options.arguments, say, Output.shownAt, Record.shownAt, decide_eq_true_eq, rank_ofVerbosity,
    Level.rank]
  omega

/-- Asking for less takes away what is not severe enough, and nothing else. -/
theorem printed_heard (width : String → Nat) (disk : Disk) (o : Options) (f : Folder) (h : v ≤ w) :
    (o.heard v).printed width disk f =
      ((o.heard w).printed width disk f).filter (Output.shownAt (.ofVerbosity v)) := by
  rw [Options.printed, Options.printed, threshold_heard, threshold_heard,
    filter_shownAt_filter (rank_ofVerbosity_mono h), runOn_heard width disk o f v,
    runOn_heard width disk o f w, outputs_withArguments, outputs_withArguments]
  by_cases hv : 3 ≤ v
  · rw [arguments_heard hv (hv.trans h)]
  · rw [List.filter_cons_of_neg (arguments_hidden hv _),
      List.filter_cons_of_neg (arguments_hidden hv _)]

/-! ### The log of the source -/

/-- Is something told a record of the grammar? -/
def Output.isGrammar : Output → Bool
  | .record r => r.origin = .grammar
  | .listing _ => false

/-- No verbosity reaches the records of single statements. -/
theorem filter_shownAt_trace {records : List Record} (htrace : ∀ r ∈ records, r.level = .trace)
    (v : Nat) : (records.map Output.record).filter (Output.shownAt (.ofVerbosity v)) = [] := by
  rw [List.filter_eq_nil_iff, List.forall_mem_map]
  intro r hr
  rw [Output.shownAt, Record.shownAt, decide_eq_true_eq, htrace r hr, rank_ofVerbosity, Level.rank]
  omega

theorem Options.Concludes.filter_isGrammar {last : List Output} (h : o.Concludes last) :
    last.filter Output.isGrammar = [] := by
  rcases h with ⟨-, rfl⟩ | ⟨name, result, -, rfl⟩
  · rfl
  · cases result <;> rfl

theorem filter_isGrammar_told (o : Options) (p : Program) :
    (o.told width p).filter Output.isGrammar = [.record p.countRecord] := by
  rw [Options.told]
  split <;> rfl

/-- What a run shows of the grammar is the log of its source, as far as it is severe enough. -/
theorem filter_isGrammar_printed (width : String → Nat) (disk : Disk)
    (hread : f.read o.input = .ok src) :
    (o.printed width disk f).filter Output.isGrammar =
      ((Program.parseLogged src).1.map Output.record).filter (Output.shownAt o.threshold) := by
  have hswap : (o.printed width disk f).filter Output.isGrammar =
      ((o.runOn width disk f).outputs.filter Output.isGrammar).filter
        (Output.shownAt o.threshold) := by
    rw [Options.printed, List.filter_filter, List.filter_filter]
    exact List.filter_congr fun x _ => Bool.and_comm ..
  rw [hswap, Options.threshold]
  cases hparse : Program.parse src with
  | error d =>
    rw [filter_shownAt_trace (logsUpTo_of_error hparse).trace,
      (Options.Ends.refused hread hparse).runOn_eq]
    rfl
  | ok p =>
    obtain ⟨last, hlast, houtputs⟩ := (runOn_ends width disk o f).outputs_eq ⟨src, hread, hparse⟩
    have htrace : ∀ r ∈ (Reading.ofSource src.toList).accepted.map (Placed.record src.toList),
        r.level = .trace := List.forall_mem_map.2 fun _ _ => rfl
    rw [houtputs, List.filter_append, filter_isGrammar_told, hlast.filter_isGrammar,
      List.append_nil, parseLogged_of_ok hparse, List.map_append, List.filter_append,
      filter_shownAt_trace htrace]
    rfl

/-! ### The listing -/

namespace Options.Ends

/-- The listing comes behind what is told of the statements and in front of what is told of the file.
-/
theorem showing (h : o.Ends width disk f outcome) (hyields : o.Yields f p) :
    ∃ last, o.Concludes last ∧ ∀ b, (o.showing b).runOn width disk f =
      { outcome with outputs := (o.showing b).arguments :: (o.counted p ++
        (if b then [.listing (p.listing width)] else []) ++ last) } := by
  cases h with
  | unreadable hread => exact absurd hyields (not_yields_of_unreadable hread)
  | refused hread hparse => exact absurd hyields (not_yields_of_refused hread hparse)
  | accepted hyields' houtput =>
    obtain rfl := hyields.unique hyields'
    refine ⟨[], .inl ⟨houtput, rfl⟩, fun b => ?_⟩
    rw [List.append_nil]
    exact (accepted (o := o.showing b) hyields houtput).runOn_eq
  | @saved _ name _ hyields' houtput hwrite =>
    obtain rfl := hyields.unique hyields'
    refine ⟨[conclude name none], .inr ⟨name, none, houtput, rfl⟩, fun b => ?_⟩
    exact (saved (o := o.showing b) hyields houtput hwrite).runOn_eq
  | @unsaved _ name fault hyields' houtput hwrite =>
    obtain rfl := hyields.unique hyields'
    refine ⟨[conclude name (some fault)], .inr ⟨name, some fault, houtput, rfl⟩, fun b => ?_⟩
    exact (unsaved (o := o.showing b) hyields houtput hwrite).runOn_eq

theorem showing_of_not_yields (h : o.Ends width disk f outcome) (hnone : ∀ p, ¬ o.Yields f p)
    (b : Bool) :
    (o.showing b).runOn width disk f = outcome.withArguments (o.showing b) := by
  cases h with
  | unreadable hread => exact (unreadable (o := o.showing b) hread).runOn_eq
  | refused hread hparse => exact (refused (o := o.showing b) hread hparse).runOn_eq
  | accepted hyields | saved hyields | unsaved hyields => exact absurd hyields (hnone _)

end Options.Ends

theorem transcript_listing (stamp : Record → String) (t : Level) (b : Bool) (text : String) :
    transcript stamp t (if b then [.listing text] else []) = if b then text ++ "\n" else "" := by
  cases b with
  | false => rfl
  | true => exact String.empty_append

/-- The listing takes part in what a run prints, and in nothing else: it is put between what is told
of the program that was read and what is told of the file that was written. -/
structure Options.ListingObserves (width : String → Nat) (stamp : Record → String) (disk : Disk)
    (o : Options) (f : Folder) : Prop where
  exitCode_eq : ∀ b, exitCode ((o.showing b).runOn width disk f).success =
    exitCode (o.runOn width disk f).success
  folder_eq : ∀ b, ((o.showing b).runOn width disk f).folder = (o.runOn width disk f).folder
  /-- The line on the listing in what is told of the arguments. -/
  arguments_eq : ∃ front back, ∀ b, (o.showing b).arguments =
    say .debug (front ++ "\n\tShow listing: " ++ (if b then "true" else "false") ++
      "\n\tOutfile: " ++ back)
  stdout_of_yields : ∀ p, o.Yields f p → ∃ last, o.Concludes last ∧ ∀ b,
    (o.showing b).stdout width stamp disk f =
      transcript stamp o.threshold [(o.showing b).arguments] ++
        transcript stamp o.threshold (o.counted p) ++
        (if b then p.listing width ++ "\n" else "") ++ transcript stamp o.threshold last
  stdout_of_not_yields : (∀ p, ¬ o.Yields f p) → ∃ later, ∀ b,
    (o.showing b).stdout width stamp disk f =
      transcript stamp o.threshold [(o.showing b).arguments] ++ transcript stamp o.threshold later

/-- The same exit code and the same files with and without the listing. -/
theorem outcome_showing (width : String → Nat) (disk : Disk) (o : Options) (f : Folder) (b : Bool) :
    ∃ outputs, (o.showing b).runOn width disk f = { o.runOn width disk f with outputs } := by
  have hends := runOn_ends width disk o f
  by_cases hyields : ∃ p, o.Yields f p
  · obtain ⟨p, hyields⟩ := hyields
    obtain ⟨last, -, hrun⟩ := hends.showing hyields
    exact ⟨_, hrun b⟩
  · exact ⟨_, hends.showing_of_not_yields (not_exists.1 hyields) b⟩

theorem listingObserves (width : String → Nat) (stamp : Record → String) (disk : Disk) (o : Options)
    (f : Folder) : o.ListingObserves width stamp disk f := by
  have hends := runOn_ends width disk o f
  refine ⟨fun b => ?_, fun b => ?_, ?_, fun p hyields => ?_, fun hnone => ?_⟩
  · obtain ⟨outputs, hrun⟩ := outcome_showing width disk o f b
    rw [hrun]
  · obtain ⟨outputs, hrun⟩ := outcome_showing width disk o f b
    rw [hrun]
  · refine ⟨"Arguments:\n\tVerbosity: " ++ o.threshold.text,
      o.output.getD "None" ++ "\n\tInfile: " ++ o.input, fun b => ?_⟩
    rw [← String.append_assoc, ← String.append_assoc]
    rfl
  · obtain ⟨last, hlast, hrun⟩ := hends.showing hyields
    refine ⟨last, hlast, fun b => ?_⟩
    rw [Options.stdout, hrun, ← List.singleton_append, ← transcript_listing, ← transcript_append,
      ← transcript_append, ← transcript_append, List.append_assoc, List.append_assoc,
      List.append_assoc]
    rfl
  · refine ⟨(o.runOn width disk f).outputs.tail, fun b => ?_⟩
    rw [Options.stdout, hends.showing_of_not_yields hnone b, ← transcript_append,
      outputs_withArguments]
    rfl

/-! ### Both together -/

/-- A run that is asked to tell less, at `v` instead of `w`, does the same and prints less: records
that are not severe enough are left out as a whole. -/
structure Options.Quieter (width : String → Nat) (stamp : Record → String) (disk : Disk)
    (o : Options) (f : Folder) (v w : Nat) : Prop where
  exitCode_eq : exitCode ((o.heard v).runOn width disk f).success =
    exitCode ((o.heard w).runOn width disk f).success
  folder_eq : ((o.heard v).runOn width disk f).folder = ((o.heard w).runOn width disk f).folder
  stdout_loud : (o.heard w).stdout width stamp disk f =
    .join (((o.heard w).printed width disk f).map (Output.whole stamp))
  stdout_quiet : (o.heard v).stdout width stamp disk f =
    .join ((((o.heard w).printed width disk f).filter (Output.shownAt (.ofVerbosity v))).map
      (Output.whole stamp))

theorem quieter_of_le (width : String → Nat) (stamp : Record → String) (disk : Disk) (o : Options)
    (f : Folder) (h : v ≤ w) : o.Quieter width stamp disk f v w := by
  refine ⟨?_, ?_, transcript_eq_join .., ?_⟩
  · rw [runOn_heard width disk o f v, runOn_heard width disk o f w]
    rfl
  · rw [runOn_heard width disk o f v, runOn_heard width disk o f w]
    rfl
  · rw [← printed_heard width disk o f h]
    exact transcript_eq_join ..

/-- From three requests on nothing more is told. -/
theorem stdout_heard_eq (width : String → Nat) (stamp : Record → String) (disk : Disk) (o : Options)
    (f : Folder) (hv : 3 ≤ v) (hw : 3 ≤ w) :
    (o.heard v).stdout width stamp disk f = (o.heard w).stdout width stamp disk f := by
  rw [Options.stdout, Options.stdout, threshold_heard, threshold_heard, ofVerbosity_of_three_le hv,
    ofVerbosity_of_three_le hw, runOn_heard width disk o f v, runOn_heard width disk o f w,
    outputs_withArguments, outputs_withArguments, arguments_heard hv hw]

/-- Verbosity and the listing change what is printed, as far as was asked for, and nothing else. At
each verbosity the log of the source is shown as far as it is severe enough. -/
theorem runOn_observed (width : String → Nat) (stamp : Record → String) (disk : Disk) (o : Options)
    (f : Folder) :
    (∀ v w, v ≤ w → o.Quieter width stamp disk f v w) ∧
      (∀ v w, 3 ≤ v → 3 ≤ w →
        (o.heard v).stdout width stamp disk f = (o.heard w).stdout width stamp disk f) ∧
      (∀ v src, f.read o.input = .ok src →
        ((o.heard v).printed width disk f).filter Output.isGrammar =
          ((Program.parseLogged src).1.map Output.record).filter
            (Output.shownAt (.ofVerbosity v))) ∧
      o.ListingObserves width stamp disk f :=
  ⟨fun _ _ => quieter_of_le width stamp disk o f, fun _ _ => stdout_heard_eq width stamp disk o f,
    fun v _ hread => filter_isGrammar_printed width disk (o := o.heard v) hread,
    listingObserves width stamp disk o f⟩

end DcpuAsm
