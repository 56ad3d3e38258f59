import Cigars.Paging.Numbered
import Cigars.Rapid.PageLoads

/-! The loads of one search and of the list of brands, one after the other against a server that cuts
its results into pages. -/
namespace Cigars
open Transition Paging

/-! ### Cigars -/

/-- The results of a search, and the names of the brands by their ids. -/
structure Catalogue extends Server RapidCigar where
  brandName : ℤ → Option String

namespace Catalogue

def response (catalogue : Catalogue) (page : Int32) : Reply GetCigarsResponse :=
  .received 200 ⟨catalogue.page page, page, catalogue.count⟩

/-- The server knows of the brand only what it is asked. -/
def brandResponse (catalogue : Catalogue) (request : GetCigarsBrand) : Reply GetCigarsBrandResponse :=
  .received 200 ⟨⟨request.brand, catalogue.brandName request.brand⟩⟩

/-- What a result has to become: a cigar with its ids, with what is said of it, and with the name of
its own brand. -/
structure IsResult (catalogue : Catalogue) (rapid : RapidCigar) (cigar : Cigar) : Prop where
  ids : cigar.relations = some [⟨"RapidAPI-Cigar", rapid.cigarId⟩, ⟨"RapidAPI-Brand", rapid.brandId⟩]
  brand : cigar.brand = catalogue.brandName rapid.brandId
  name : ∀ name, rapid.name = some name → cigar.name = name
  country : cigar.country = rapid.country
  filler : ∀ filler, rapid.filler = some filler → cigar.filler = filler
  wrapper : ∀ wrapper, rapid.wrapper = some wrapper → cigar.wrapper = wrapper
  gauge : ∀ gauge, rapid.ringGauge = some gauge → cigar.gauge = gauge
  length : ∀ length, rapid.length = some length → cigar.length = fraction length
  strength : ∀ strength : CigarStrength, rapid.strength = some strength.name → cigar.strength = strength

/-- The page of a key: the results the server cuts out for it, and the keys of its neighbours. -/
def IsPage (catalogue : Catalogue) (key : Option Int32) : LoadResult → Prop
  | .page data prevKey nextKey => List.Forall₂ catalogue.IsResult (catalogue.page (key.getD 1)) data ∧
    prevKey = (if key.getD 1 = 1 then none else some (key.getD 1 - 1)) ∧
    nextKey = if data = [] then none else some (key.getD 1 + 1)
  | .error _ => False

/-- The cigar a load makes of a result. -/
def cigar (catalogue : Catalogue) (rapid : RapidCigar) : Cigar :=
  { rapid.toCigar with brand := catalogue.brandName rapid.brandId }

/-- Everything load `i` waits for is answered until it returns. -/
def serve (catalogue : Catalogue) (i : ℕ) : ℕ → PageLoads → Option (LoadResult × PageLoads)
  | 0, _ => none
  | fuel + 1, s => s.loads[i]?.bind fun load =>
    match load.phase with
    | .response =>
      ((PageLoads.Op.response i (catalogue.response load.requested)).perform s).bind (serve catalogue i fuel)
    | .brand request _ _ _ =>
      ((PageLoads.Op.brand i (catalogue.brandResponse request)).perform s).bind (serve catalogue i fuel)
    | .ended result => some (result, s)

/-- One load, called and run to its end. -/
def load (catalogue : Catalogue) (fuel : ℕ) (key : Option Int32) (s : PageLoads) :
    Option (LoadResult × PageLoads) :=
  ((PageLoads.Op.load key).perform s).bind (catalogue.serve s.loads.length fuel)

/-- One load that returns a page. -/
def loadPage (catalogue : Catalogue) (fuel : ℕ) (key : Option Int32) (s : PageLoads) :
    Option (Page Cigar × PageLoads) :=
  match catalogue.load fuel key s with
  | some (.page data prevKey nextKey, s') => some (⟨data, prevKey, nextKey⟩, s')
  | _ => none

/-- The page of a key as it is returned. -/
def pageOf (catalogue : Catalogue) (key : Option Int32) : LoadResult :=
  let data := (catalogue.page (key.getD 1)).map catalogue.cigar
  .page data (PageLoads.prevKey (key.getD 1)) (PageLoads.nextKey (key.getD 1) data)

variable (catalogue : Catalogue) {i : ℕ} {s : PageLoads}

theorem isResult_cigar (rapid : RapidCigar) : catalogue.IsResult rapid (catalogue.cigar rapid) where
  ids := rfl
  brand := rfl
  name name h := by simp [cigar, RapidCigar.toCigar, h]
  country := rfl
  filler filler h := by simp [cigar, RapidCigar.toCigar, h]
  wrapper wrapper h := by simp [cigar, RapidCigar.toCigar, h]
  gauge gauge h := by simp [cigar, RapidCigar.toCigar, h]
  length length h := by simp [cigar, RapidCigar.toCigar, h]
  strength strength h := by simp [cigar, RapidCigar.toCigar, h, CigarStrength.fromString_name]

theorem forall₂_map_cigar (rapids : List RapidCigar) :
    List.Forall₂ catalogue.IsResult rapids (rapids.map catalogue.cigar) := by
  rw [List.forall₂_map_right_iff, List.forall₂_same]
  intro rapid _
  exact catalogue.isResult_cigar rapid

theorem isPage_pageOf (key : Option Int32) : catalogue.IsPage key (catalogue.pageOf key) := by
  refine ⟨catalogue.forall₂_map_cigar _, rfl, ?_⟩
  simp only [PageLoads.nextKey, List.isEmpty_iff]

theorem serve_response (fuel : ℕ) {load : Load} (hi : s.loads[i]? = some load) (hphase : load.phase = .response) :
    catalogue.serve i (fuel + 1) s = catalogue.serve i fuel
      (s.onResponse i load (catalogue.response load.requested)) := by
  have hperform : (PageLoads.Op.response i (catalogue.response load.requested)).perform s =
      some (s.onResponse i load (catalogue.response load.requested)) := by
    rw [PageLoads.Op.perform, hi, Option.bind_some, hphase]
  rw [serve, hi, Option.bind_some, hphase]
  dsimp only
  rw [hperform, Option.bind_some]

/-- The brand that is asked for is the cigar's own. -/
theorem serve_brand (fuel : ℕ) {load : Load} {rapid : RapidCigar} {rest : List RapidCigar} {list : List Cigar}
    (hi : s.loads[i]? = some load) (hphase : load.phase = PageLoads.proceed s.page list (rapid :: rest)) :
    catalogue.serve i (fuel + 1) s = catalogue.serve i fuel
      (s.setPhase i load (PageLoads.proceed s.page (list ++ [catalogue.cigar rapid]) rest)) := by
  have hbrand : load.phase = .brand ⟨rapid.brandId⟩ rapid rest list := hphase
  have hfound := (PageLoads.brandStep_found hi hbrand ⟨rapid.brandId, catalogue.brandName rapid.brandId⟩).1.1
  rw [serve, hi, Option.bind_some, hbrand]
  dsimp only [brandResponse]
  rw [hfound, Option.bind_some]
  rfl

theorem serve_ended (fuel : ℕ) {load : Load} {result : LoadResult} (hi : s.loads[i]? = some load)
    (hphase : load.phase = .ended result) : catalogue.serve i (fuel + 1) s = some (result, s) := by
  rw [serve, hi, Option.bind_some, hphase]

/-- One brand after the other is looked up, and the page is returned. -/
theorem serve_proceed (fuel : ℕ) {load : Load} {list : List Cigar} {rapids : List RapidCigar}
    (hi : s.loads[i]? = some load) (hphase : load.phase = PageLoads.proceed s.page list rapids)
    (hfuel : rapids.length < fuel) :
    ∃ s', catalogue.serve i fuel s = some (.page (list ++ rapids.map catalogue.cigar) (PageLoads.prevKey s.page)
      (PageLoads.nextKey s.page (list ++ rapids.map catalogue.cigar)), s') := by
  induction rapids generalizing fuel s load list with
  | nil =>
    cases fuel with
    | zero => cases hfuel
    | succ fuel =>
      rw [List.map_nil, List.append_nil]
      exact ⟨s, catalogue.serve_ended fuel hi hphase⟩
  | cons rapid rest ih =>
    cases fuel with
    | zero => cases hfuel
    | succ fuel =>
      have hnext := PageLoads.getElem?_setPhase hi
        (PageLoads.proceed s.page (list ++ [catalogue.cigar rapid]) rest)
      have hserved := ih fuel hnext rfl (Nat.lt_of_succ_lt_succ hfuel)
      rw [← List.append_cons] at hserved
      rw [catalogue.serve_brand fuel hi hphase]
      exact hserved

/-- A load returns the page of its key, whatever the request went through before. -/
theorem load_eq_pageOf {fuel : ℕ} (hfuel : catalogue.size + 1 < fuel) (key : Option Int32)
    (s : PageLoads) : ∃ s', catalogue.load fuel key s = some (catalogue.pageOf key, s') := by
  have hlength : (catalogue.page (key.getD 1)).length ≤ catalogue.size := catalogue.length_page_le _
  cases fuel with
  | zero => omega
  | succ fuel =>
    let called : PageLoads := { s with
      page := key.getD 1
      loads := s.loads ++ [⟨key, key.getD 1, .response⟩] }
    let answered : PageLoads := called.received ⟨catalogue.page (key.getD 1), key.getD 1, catalogue.count⟩
    have hi : called.loads[s.loads.length]? = some ⟨key, key.getD 1, .response⟩ := List.getElem?_concat_length
    have hnext := PageLoads.getElem?_setPhase (s := answered) hi
      (PageLoads.proceed (key.getD 1) [] (catalogue.page (key.getD 1)))
    have hserved := catalogue.serve_proceed fuel hnext rfl (by omega)
    have hload : catalogue.load (fuel + 1) key s = catalogue.serve s.loads.length (fuel + 1) called := rfl
    rw [hload, catalogue.serve_response fuel hi rfl]
    exact hserved

theorem loadsFrom {fuel : ℕ} (hfuel : catalogue.size + 1 < fuel) :
    LoadsFrom catalogue.toServer catalogue.cigar (catalogue.loadPage fuel) := by
  intro key s
  obtain ⟨s', hload⟩ := catalogue.load_eq_pageOf hfuel key s
  have hpage : catalogue.loadPage fuel key s = some (⟨(catalogue.page (key.getD 1)).map catalogue.cigar,
      PageLoads.prevKey (key.getD 1),
      PageLoads.nextKey (key.getD 1) ((catalogue.page (key.getD 1)).map catalogue.cigar)⟩, s') := by
    rw [loadPage, hload]
    rfl
  refine ⟨_, s', hpage, rfl, ?_⟩
  simp only [PageLoads.nextKey, List.isEmpty_iff]

end Catalogue

/-- A load of `key` was called in state `s`; it has returned an error by the time the state is `s'`. -/
def PageLoads.LoadFailed (s : PageLoads) (key : Option Int32) (s' : PageLoads) : Prop :=
  ∃ called trace load message, (Op.load key).perform s = some called ∧
    Run (fun s op s' => Op.perform s op = some s') called trace s' ∧
    s'.loads[s.loads.length]? = some load ∧ load.phase = .ended (.error message)

/-! ### Brands -/

structure GetCigarsBrandsResponse where
  brands : List RapidCigarBrand
  count : Int32
  page : Int32

structure GetCigarsBrands where
  page : Int32
  totalItems : Int32
  receivedItems : Int32

namespace GetCigarsBrands

def start : GetCigarsBrands := ⟨0, 0, 0⟩

def process (r : GetCigarsBrands) : Reply GetCigarsBrandsResponse → Except String (List Brand) × GetCigarsBrands
  | .failed message => (.error message, r)
  | .received status response =>
    if status = 200 then
      (.ok (response.brands.map RapidCigarBrand.toBrand), {
        totalItems := response.count
        receivedItems := r.receivedItems + Int32.ofNat response.brands.length
        page := response.page })
    else (.error (PageLoads.gotResponse status), r)

/-- `fetch` is what the request for a page ends with. -/
def sync (fetch : Int32 → Reply GetCigarsBrandsResponse) (r : GetCigarsBrands) :
    Except String (List Brand) × GetCigarsBrands := r.process (fetch r.page)

/-- The request blocks, so nothing happens in between. -/
def load (fetch : Int32 → Reply GetCigarsBrandsResponse) (key : Option Int32) (r : GetCigarsBrands) :
    Except String (Page Brand) × GetCigarsBrands :=
  match sync fetch { r with page := key.getD 1 } with
  | (.error message, r') => (.error message, r')
  | (.ok list, r') => (.ok ⟨list, PageLoads.prevKey r'.page, if list.isEmpty then none else some (r'.page + 1)⟩, r')

def fetchFrom (server : Server RapidCigarBrand) (page : Int32) : Reply GetCigarsBrandsResponse :=
  .received 200 ⟨server.page page, server.count, page⟩

/-- One load that returns a page. -/
def loadPage (server : Server RapidCigarBrand) (key : Option Int32) (r : GetCigarsBrands) :
    Option (Page Brand × GetCigarsBrands) :=
  match load (fetchFrom server) key r with
  | (.ok page, r') => some (page, r')
  | (.error _, _) => none

def IsResult (it : RapidCigarBrand) (brand : Brand) : Prop := brand.rowid = it.brandId ∧ brand.name = it.name

/-- The page of a key: the brands the server cuts out for it, and the keys of its neighbours. -/
structure IsPage (server : Server RapidCigarBrand) (key : Option Int32) (page : Page Brand) : Prop where
  data : List.Forall₂ IsResult (server.page (key.getD 1)) page.data
  prevKey : page.prevKey = if key.getD 1 = 1 then none else some (key.getD 1 - 1)
  nextKey : page.nextKey = if page.data = [] then none else some (key.getD 1 + 1)

/-- The page of a key as it is returned. -/
def pageOf (server : Server RapidCigarBrand) (key : Option Int32) : Page Brand :=
  let data := (server.page (key.getD 1)).map RapidCigarBrand.toBrand
  ⟨data, PageLoads.prevKey (key.getD 1), if data.isEmpty then none else some (key.getD 1 + 1)⟩

theorem forall₂_map_toBrand (brands : List RapidCigarBrand) :
    List.Forall₂ IsResult brands (brands.map RapidCigarBrand.toBrand) := by
  rw [List.forall₂_map_right_iff, List.forall₂_same]
  intro it _
  exact ⟨rfl, rfl⟩

theorem isPage_pageOf (server : Server RapidCigarBrand) (key : Option Int32) :
    IsPage server key (pageOf server key) where
  data := forall₂_map_toBrand _
  prevKey := rfl
  nextKey := by simp only [pageOf, List.isEmpty_iff]

/-- A load returns the page of its key, whatever the request went through before. -/
theorem load_eq_pageOf (server : Server RapidCigarBrand) (key : Option Int32) (r : GetCigarsBrands) :
    (load (fetchFrom server) key r).1 = .ok (pageOf server key) := rfl

theorem loadsFrom (server : Server RapidCigarBrand) :
    LoadsFrom server RapidCigarBrand.toBrand (loadPage server) := by
  intro key r
  refine ⟨pageOf server key, _, rfl, rfl, ?_⟩
  simp only [pageOf, List.isEmpty_iff]

end GetCigarsBrands

/-- Followed from key 1 on, the loads of a search and those of the brands stop and return every item
once and in order, each cigar with the name of its own brand. A load that is repeated after an error
returns what it would have returned at first. -/
theorem onlinePages_complete (catalogue : Catalogue) (brands : Server RapidCigarBrand) :
    (∀ s fuel, catalogue.items.length + catalogue.size + 1 < fuel →
      ∃ cigars s', follow (catalogue.loadPage fuel) fuel (some 1) s = some (cigars, s') ∧
        List.Forall₂ catalogue.IsResult catalogue.items cigars) ∧
    (∀ r fuel, brands.items.length < fuel →
      ∃ list r', follow (GetCigarsBrands.loadPage brands) fuel (some 1) r = some (list, r') ∧
        List.Forall₂ GetCigarsBrands.IsResult brands.items list) ∧
    (∀ s key s' fuel, s.LoadFailed key s' → catalogue.size + 1 < fuel →
      ∃ result, (catalogue.load fuel key s').map Prod.fst = some result ∧
        (catalogue.load fuel key s).map Prod.fst = some result ∧ catalogue.IsPage key result) ∧
    (∀ fetch key r message, (GetCigarsBrands.load fetch key r).1 = .error message →
      ∃ page, (GetCigarsBrands.load (GetCigarsBrands.fetchFrom brands) key
          (GetCigarsBrands.load fetch key r).2).1 = .ok page ∧
        (GetCigarsBrands.load (GetCigarsBrands.fetchFrom brands) key r).1 = .ok page ∧
        GetCigarsBrands.IsPage brands key page) := by
  refine ⟨?_, ?_, ?_, ?_⟩
  · intro s fuel hfuel
    have hload := catalogue.loadsFrom (show catalogue.size + 1 < fuel by omega)
    obtain ⟨s', hfollow⟩ := follow_eq_items hload (show catalogue.items.length < fuel by omega) s
    exact ⟨_, s', hfollow, catalogue.forall₂_map_cigar _⟩
  · intro r fuel hfuel
    obtain ⟨r', hfollow⟩ := follow_eq_items (GetCigarsBrands.loadsFrom brands) hfuel r
    exact ⟨_, r', hfollow, GetCigarsBrands.forall₂_map_toBrand _⟩
  · intro s key s' fuel _ hfuel
    obtain ⟨s₁, hrepeated⟩ := catalogue.load_eq_pageOf hfuel key s'
    obtain ⟨s₂, hfirst⟩ := catalogue.load_eq_pageOf hfuel key s
    refine ⟨catalogue.pageOf key, ?_, ?_, catalogue.isPage_pageOf key⟩
    · rw [hrepeated, Option.map_some]
    · rw [hfirst, Option.map_some]
  · intro fetch key r message _
    exact ⟨GetCigarsBrands.pageOf brands key, GetCigarsBrands.load_eq_pageOf brands key _,
      GetCigarsBrands.load_eq_pageOf brands key r, GetCigarsBrands.isPage_pageOf brands key⟩

/-- Two cigars of two brands, one a page. -/
def twoBrands : Catalogue where
  items := [⟨1, 7, some "Robusto", none, some 50, none, none, none, none, none, none⟩,
    ⟨2, 8, some "Corona", none, some 42, none, none, none, none, none, none⟩]
  size := 1
  size_pos := by decide
  length_lt := by decide
  brandName id := some (if id = 7 then "Cohiba" else "Bolivar")

def twoBrandsList : Server RapidCigarBrand := ⟨[⟨7, some "Cohiba"⟩, ⟨8, some "Bolivar"⟩], 1, by decide, by decide⟩

/-- The request after a first load that got no response. -/
def afterTimeout : PageLoads := ⟨1, 0, 0, [⟨some 1, 1, .ended (.error "timeout")⟩]⟩

theorem onlinePages_complete_twoBrands :
    (∃ cigars s', follow (twoBrands.loadPage 5) 5 (some 1) PageLoads.start = some (cigars, s') ∧
      cigars.map Cigar.brand = [some "Cohiba", some "Bolivar"]) ∧
    (∃ list r', follow (GetCigarsBrands.loadPage twoBrandsList) 3 (some 1) GetCigarsBrands.start =
      some (list, r') ∧ List.Forall₂ GetCigarsBrands.IsResult twoBrandsList.items list) ∧
    (∃ result, (twoBrands.load 5 (some 1) afterTimeout).map Prod.fst = some result ∧
      twoBrands.IsPage (some 1) result) ∧
    ∃ page, (GetCigarsBrands.load (GetCigarsBrands.fetchFrom twoBrandsList) (some 1)
      (GetCigarsBrands.load (fun _ => .failed "timeout") (some 1) GetCigarsBrands.start).2).1 = .ok page ∧
        GetCigarsBrands.IsPage twoBrandsList (some 1) page := by
  obtain ⟨hcigars, hbrands, hagain, hbrandsAgain⟩ := onlinePages_complete twoBrands twoBrandsList
  obtain ⟨cigars, s', hfollow, hresults⟩ := hcigars PageLoads.start 5 (by decide)
  have hstep : (PageLoads.Op.response 0 (.failed "timeout")).perform ⟨1, 0, 0, [⟨some 1, 1, .response⟩]⟩ =
      some afterTimeout := rfl
  have hfailed : PageLoads.start.LoadFailed (some 1) afterTimeout :=
    ⟨_, _, _, "timeout", rfl, Run.start.next hstep, rfl, rfl⟩
  obtain ⟨result, hresult, -, hpage⟩ := hagain PageLoads.start (some 1) afterTimeout 5 hfailed (by decide)
  obtain ⟨page, hrepeated, -, hbrandPage⟩ :=
    hbrandsAgain (fun _ => .failed "timeout") (some 1) GetCigarsBrands.start "timeout" rfl
  refine ⟨⟨cigars, s', hfollow, ?_⟩, hbrands _ 3 (by decide), ⟨result, hresult, hpage⟩, page, hrepeated, hbrandPage⟩
  have hnames : twoBrands.items.map (fun rapid => twoBrands.brandName rapid.brandId) = cigars.map Cigar.brand := by
    rw [← List.forall₂_eq_eq_eq, List.forall₂_map_left_iff, List.forall₂_map_right_iff]
    exact hresults.imp fun _ _ h => h.brand.symm
  rw [← hnames]
  decide

end Cigars
