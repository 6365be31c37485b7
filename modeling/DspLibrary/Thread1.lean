import DspLibrary.Kinds
import DspLibrary.Chibios.PrintfFormat

/-! The thread of the program: it configures a filter, feeds it samples and prints every result.
What it prints is read back on the other end of the line. -/
namespace DspLibrary
open Foundation Chibios

/-! ### The program -/

/-- `TipoFiltro`. -/
def filterKind (tipoFiltro : ℤ) : FilterKind :=
  if tipoFiltro = 1 then .iirFormI else if tipoFiltro = 0 then .fir .formI else .iirFormII

/-- The thread stops in a filter or in `chprintf`. -/
inductive ThreadFault
  | filter (e : Fault ArrayName)
  | print (e : PrintFault)
  deriving DecidableEq

/-- `"\r\n\n\n\nResultado:"`. -/
def banner : List UInt8 := [13,10,10,10,10,82,101,115,117,108,116,97,100,111,58]

/-- `"%f "`. -/
def resultText : List UInt8 := [37,102,32]

/-- `chprintf`, with the bytes that the stream gets. -/
def chprintf (m : Bytes) (fmt : List UInt8) (ap : List Arg) : Except ThreadFault (List UInt8) :=
  ((chvprintf m (fmt++[0]) ap).map Output.bytes).mapError .print

section Program
variable {α : Type} [Zero α] [Add α] [Sub α] [Mul α] (value : α → ℚ)

/-- The loop over the samples. A result is promoted to a `double` when it is passed. -/
def printResults (kind : FilterKind) (m : Bytes) :
    Filter α → List α → Except ThreadFault (List UInt8)
  | _,[] => .ok []
  | f,x::xs => do
    let (y,f) ← (kind.process f x).mapError .filter
    let s ← chprintf m resultText [.float (value y)]
    let t ← printResults kind m f xs
    return s++t

/-- `main` up to the creation of the thread, and the thread up to the destruction of the filter: the
bytes that go to the stream. -/
def thread1 (tipoFiltro : ℤ) (sys : Supply) (h : Heap) (d : DataFilter α) (m : Bytes) (N : ℕ)
    (x b y a : ℕ → α) (inputs : List α) : Except ThreadFault (List UInt8) := do
  let f ← ((filterKind tipoFiltro).start sys h d N x b y a).mapError .filter
  let s ← chprintf m banner []
  let t ← printResults value (filterKind tipoFiltro) m f inputs
  return s++t

end Program

/-! ### What is printed -/

/-- The text of one result. -/
def numberText (y : ℚ) : List UInt8 :=
  (if single y < 0 then [45] else [])++fixedText |single y| floatPrecision

def bannerFormat : Format := .whole (banner.map .plain) (by decide)

def resultFormat : Format :=
  .whole [.directive ⟨false,false,[],none,none,102⟩,.plain 32] (by decide)

lemma chprintf_banner (m : Bytes) : chprintf m banner [] = .ok banner := by
  rw [chprintf,show banner = bannerFormat.text by decide,chvprintf_text]
  decide +kernel

lemma chprintf_result (m : Bytes) {y : ℚ} (hy : |single y| < 2^31) :
    chprintf m resultText [.float y] = .ok (numberText y++[32]) := by
  rw [chprintf,show resultText = resultFormat.text by decide,chvprintf_text]
  simp [Format.output,resultFormat,Format.whole,Item.outputAll,Item.output,Directive.output,
    fieldValue,commandText,Arg.takeFloat,floatText,hy,padTo,pure_eq_ok,numberText,fractionDigits]
  rfl

lemma chprintf_result_overflow (m : Bytes) {y : ℚ} (hy : 2^31 ≤ |single y|) :
    chprintf m resultText [.float y] = .error (.print .overflow) := by
  rw [chprintf,show resultText = resultFormat.text by decide,chvprintf_text]
  simp [Format.output,resultFormat,Format.whole,Item.outputAll,Item.output,Directive.output,
    fieldValue,commandText,Arg.takeFloat,floatText,not_lt.mpr hy]
  rfl

section Results
variable {α : Type} [Zero α] [Add α] [Sub α] [Mul α] (value : α → ℚ) {kind : FilterKind}
  (m : Bytes) {f f' : Filter α} {xs ys : List α}

/-- The loop prints the answers of the filter, a blank after each. -/
lemma printResults_eq (hfeed : feed kind.process f xs = .ok (ys,f'))
    (hy : ∀ y ∈ ys, |single (value y)| < 2^31) : printResults value kind m f xs =
      .ok (ys.flatMap fun y => numberText (value y)++[32]) := by
  induction xs generalizing f ys with
  | nil =>
    obtain ⟨rfl,-⟩ := Prod.mk.inj (Except.ok.inj hfeed)
    rfl
  | cons x xs ih =>
    obtain ⟨⟨y,g⟩,hstep,hrest⟩ := exists_of_bind_eq_ok hfeed
    obtain ⟨⟨zs,g'⟩,hfeed',hend⟩ := exists_of_bind_eq_ok hrest
    obtain ⟨rfl,rfl⟩ := Prod.mk.inj (Except.ok.inj hend)
    obtain ⟨hy0,hys⟩ := List.forall_mem_cons.mp hy
    simp only [printResults,hstep,Except.mapError,ok_bind,chprintf_result m hy0,ih hfeed' hys]
    rfl

/-- A result that does not fit stops the thread. -/
lemma printResults_overflow (hfeed : feed kind.process f xs = .ok (ys,f'))
    (hy : ∃ y ∈ ys, 2^31 ≤ |single (value y)|) :
    printResults value kind m f xs = .error (.print .overflow) := by
  induction xs generalizing f ys with
  | nil =>
    obtain ⟨rfl,-⟩ := Prod.mk.inj (Except.ok.inj hfeed)
    simp at hy
  | cons x xs ih =>
    obtain ⟨⟨y,g⟩,hstep,hrest⟩ := exists_of_bind_eq_ok hfeed
    obtain ⟨⟨zs,g'⟩,hfeed',hend⟩ := exists_of_bind_eq_ok hrest
    obtain ⟨rfl,rfl⟩ := Prod.mk.inj (Except.ok.inj hend)
    simp only [printResults,hstep,Except.mapError,ok_bind]
    by_cases hy0 : 2^31 ≤ |single (value y)|
    · rw [chprintf_result_overflow m hy0,error_bind]
    · have hzs : ∃ z ∈ zs, 2^31 ≤ |single (value z)| := by simpa [hy0] using hy
      rw [chprintf_result m (not_le.mp hy0),ok_bind,ih hfeed' hzs,error_bind]

end Results

/-! ### Reading the results -/

/-- The numbers of a text in which a blank follows each. -/
def readResults (s : List UInt8) : List ℚ := ((s.splitOnP (· == 32)).dropLast).map readFloat

lemma numberText_ne_blank (y : ℚ) : ∀ c ∈ numberText y, c ≠ 32 := by
  intro c hc
  rcases List.mem_append.mp hc with hc | hc
  · split at hc
    · obtain rfl := List.mem_singleton.mp hc
      decide
    · simp at hc
  · exact fixedText_ne_blank _ _ c hc

lemma readResults_texts (ys : List ℚ) :
    readResults (ys.flatMap fun y => numberText y++[32]) =
      ys.map fun y => readFloat (numberText y) := by
  induction ys with
  | nil => rfl
  | cons y ys ih =>
    have hblank : ∀ c ∈ numberText y, (c == 32) = false := by simpa using numberText_ne_blank y
    rw [List.flatMap_cons,List.append_assoc,List.singleton_append,readResults,
      List.splitOnP_append_cons_of_forall_mem hblank 32 (by decide),
      List.dropLast_cons_of_ne_nil (List.splitOnP_ne_nil _ _),List.map_cons,List.map_cons,← ih]
    rfl

/-- `v` is `y` without the digits after the ninth. -/
def Shows (y v : ℚ) : Prop :=
  |v| = ⌊|y| * 10^9⌋₊/10^9 ∧ |y-v| < 1/10^9 ∧ 0 ≤ y*v

lemma shows_numberText (y : ℚ) : Shows (single y) (readFloat (numberText y)) :=
  readFloat_truncates (single y) 9

/-! ### The whole thread -/

/-- The outputs of a filter with the given coefficients and past: the convolution, the solution of
the difference equation that continues the past outputs, or the zeros applied to the auxiliary
signal that is at rest before the oldest past input. -/
def FilterKind.Specifies {α : Type*} [Zero α] [Add α] [Sub α] [Mul α] (kind : FilterKind) (N : ℕ)
    (b a : ℕ → α) (x : ℤ → α) (yPast : ℕ → α) (out : ℤ → α) : Prop :=
  match kind with
  | .fir _ => out = convolve N b x
  | .iirFormI => (∀ j < N, out (j-N) = yPast j) ∧ DifferenceEquation N b a x out
  | .iirFormII => ∃ v, IsAuxiliary N a x v ∧ out = convolve N b v

lemma FilterKind.exists_response {α : Type*} [Zero α] [Add α] [Sub α] [Mul α] (kind : FilterKind)
    (sys : Allocator) (h : Heap) (d : DataFilter α) {N : ℕ} (hN : kind = .iirFormII → 1 ≤ N)
    (b a : ℕ → α) (x : ℤ → α) (yPast : ℕ → α)
    (hroom : N+bufferSize ≤ sys.room (d.filterOrder+bufferSize)) :
    ∃ out, kind.Specifies N b a x yPast out ∧ ∀ L : ℕ,
      Yields (kind.start sys h d N (history N x) b yPast a) fun f =>
        Yields (feed kind.process f (samples x 0 L)) fun r => r.1 = samples out 0 L := by
  cases kind with
  | fir form =>
    refine ⟨convolve N b x,rfl,fun L => ?_⟩
    refine (FIR.start_yields sys h d N b (fun _ _ => rfl) hroom).mono fun f hf => ?_
    have hrun : (FilterKind.fir form).Running N b a x x 0 f := running_of_FIR hf
    exact (hrun.feed le_rfl (fun _ _ => trivial) L).mono fun r hr => hr.1
  | iirFormI =>
    obtain ⟨y,hpast,hy,hstart⟩ := IIR.exists_runningFormI sys h d N b a x yPast hroom
    refine ⟨y,⟨hpast,hy⟩,fun L => hstart.mono fun f hf => ?_⟩
    have hrun : FilterKind.iirFormI.Running N b a x y 0 f := running_of_IIR hf
    exact (hrun.feed le_rfl hy L).mono fun r hr => hr.1
  | iirFormII =>
    have hN := hN rfl
    obtain ⟨v,-,hv⟩ := exists_isAuxiliary N a x x
    refine ⟨convolve N b v,⟨v,hv,rfl⟩,fun L => ?_⟩
    refine (IIR.startFormII_yields sys h d N b a (fun _ _ => rfl) hN hv hroom).mono fun f hf => ?_
    have hrun : FilterKind.iirFormII.Running N b a x v 0 f := running_of_IIR hf
    exact (hrun.feed le_rfl (fun t ht => hv.step_full hN ht) L).mono fun r hr => hr.1

/-- From the coefficients to the text: after the banner the thread prints, for every sample, the
output that the filter's equation gives in the arithmetic of the samples, and whoever reads the text
gets the outputs in single precision without the digits after the ninth. An output that does not fit
a `long` has no text. -/
theorem thread1_prints_results {α : Type} [Zero α] [Add α] [Sub α] [Mul α] (value : α → ℚ)
    (tipoFiltro : ℤ) (sys : Allocator) (h : Heap) (d : DataFilter α) (m : Bytes) {N : ℕ}
    (hN : filterKind tipoFiltro = .iirFormII → 1 ≤ N) (b a : ℕ → α) (x : ℤ → α) (yPast : ℕ → α)
    (hroom : N+bufferSize ≤ sys.room (d.filterOrder+bufferSize)) :
    ∃ out, (filterKind tipoFiltro).Specifies N b a x yPast out ∧ ∀ L : ℕ,
      ((∀ y ∈ samples out 0 L, |single (value y)| < 2^31) →
        Yields (thread1 value tipoFiltro sys h d m N (history N x) b yPast a (samples x 0 L))
          fun s => banner <+: s ∧
            List.Forall₂ (fun y v => Shows (single (value y)) v) (samples out 0 L)
              (readResults (s.drop banner.length))) ∧
      ((∃ y ∈ samples out 0 L, 2^31 ≤ |single (value y)|) →
        thread1 value tipoFiltro sys h d m N (history N x) b yPast a (samples x 0 L) =
          .error (.print .overflow)) := by
  obtain ⟨out,hspec,hresponse⟩ :=
    (filterKind tipoFiltro).exists_response sys h d hN b a x yPast hroom
  refine ⟨out,hspec,fun L => ?_⟩
  obtain ⟨f,hstart,⟨ys,f'⟩,hfeed,rfl⟩ := hresponse L
  have hthread : thread1 value tipoFiltro sys h d m N (history N x) b yPast a (samples x 0 L) =
      printResults value (filterKind tipoFiltro) m f (samples x 0 L) >>=
        fun t => .ok (banner++t) := by
    simp only [thread1,hstart,Except.mapError,ok_bind,chprintf_banner]
    rfl
  rw [hthread]
  constructor
  · intro hfits
    rw [printResults_eq value m hfeed hfits,ok_bind]
    refine .ok ⟨List.prefix_append _ _,?_⟩
    have htexts := readResults_texts ((samples out 0 L).map value)
    rw [List.flatMap_map,List.map_map] at htexts
    rw [List.drop_left,htexts,List.forall₂_map_right_iff,List.forall₂_same]
    exact fun y _ => shows_numberText (value y)
  · intro hlarge
    rw [printResults_overflow value m hfeed hlarge,error_bind]

/-- The coefficients and the first samples of `main`. -/
def mainB (k : ℕ) : Single :=
  .round ([0.0186074,-0.0180370,-0.0180370,0.0186074].getD k 0)

def mainA (k : ℕ) : Single := .round ([1,-2.8687468,2.7565297,-0.8866419].getD k 0)

def mainX (t : ℤ) : Single :=
  .round ([-17.69292,-16.55573,-15.21628,-13.69094,-11.99835].getD (t+3).toNat 0)

def mainY (j : ℕ) : Single := .round ([-2.19972,-3.61250,-5.01023].getD j 0)

/-- In single precision direct form I prints `-6.376381874 -7.694288253 ` for the first two
samples. -/
theorem thread1_prints_results_main :
    (∃ out, (filterKind 1).Specifies 3 mainB mainA mainX mainY out ∧ ∀ L : ℕ,
      ((∀ y ∈ samples out 0 L, |y.val| < 2^31) →
        Yields (thread1 Single.val 1 Allocator.bump ⟨∅,0⟩ (DataFilter.blank Single 3) (fun _ => 0) 3
            (history 3 mainX) mainB mainY mainA (samples mainX 0 L)) fun s =>
          banner <+: s ∧ List.Forall₂ (fun y v => Shows y.val v) (samples out 0 L)
            (readResults (s.drop banner.length))) ∧
      ((∃ y ∈ samples out 0 L, 2^31 ≤ |y.val|) →
        thread1 Single.val 1 Allocator.bump ⟨∅,0⟩ (DataFilter.blank Single 3) (fun _ => 0) 3
          (history 3 mainX) mainB mainY mainA (samples mainX 0 L) = .error (.print .overflow))) ∧
    thread1 Single.val 1 Allocator.bump ⟨∅,0⟩ (DataFilter.blank Single 3) (fun _ => 0) 3
      (history 3 mainX) mainB mainY mainA (samples mainX 0 2) =
        .ok (banner++[45,54,46,51,55,54,51,56,49,56,55,52,32,
          45,55,46,54,57,52,50,56,56,50,53,51,32]) := by
  refine ⟨?_,by decide +kernel⟩
  have hmain := thread1_prints_results Single.val 1 Allocator.bump ⟨∅,0⟩ (DataFilter.blank Single 3)
    (fun _ => 0) (fun _ => show 1 ≤ 3 by decide) mainB mainA mainX mainY (by decide)
  simpa only [Single.single_val] using hmain

end DspLibrary
