import WorkspaceCycles.Settings
import WorkspaceCycles.Validation

namespace WorkspaceCycles

open Validation

namespace Severity

def rule : Rule Severity :=
  choice "Input should be 'low', 'medium', 'high' or 'critical'" named

end Severity

namespace Tool

def rule : Rule Tool :=
  choice "Input should be 'dpdm', 'madge' or 'native'" named

end Tool

namespace Settings.Name

def version : FieldName := ⟨"version", "version"⟩
def circular : FieldName := ⟨"circular", "circular"⟩
def enabled : FieldName := ⟨"enabled", "enabled"⟩
def intraPackage : FieldName := ⟨"intraPackage", "intra_package"⟩
def interPackage : FieldName := ⟨"interPackage", "inter_package"⟩
def intraPackageSeverity : FieldName := ⟨"intraPackageSeverity", "intra_package_severity"⟩
def interPackageSeverity : FieldName := ⟨"interPackageSeverity", "inter_package_severity"⟩
def tools : FieldName := ⟨"tools", "tools"⟩
def ignoreCycles : FieldName := ⟨"ignoreCycles", "ignore_cycles"⟩
def ignorePackageCycles : FieldName := ⟨"ignorePackageCycles", "ignore_package_cycles"⟩
def includePackages : FieldName := ⟨"includePackages", "include_packages"⟩
def excludePackages : FieldName := ⟨"excludePackages", "exclude_packages"⟩
def dpdm : FieldName := ⟨"dpdm", "dpdm"⟩
def madge : FieldName := ⟨"madge", "madge"⟩
def native : FieldName := ⟨"native", "native"⟩
def analyzerTimeout : FieldName := ⟨"analyzerTimeout", "analyzer_timeout"⟩
def pattern : FieldName := ⟨"pattern", "pattern"⟩
def package : FieldName := ⟨"package", "package"⟩
def reason : FieldName := ⟨"reason", "reason"⟩
def skipDynamicImports : FieldName := ⟨"skipDynamicImports", "skip_dynamic_imports"⟩
def skipTypeOnly : FieldName := ⟨"skipTypeOnly", "skip_type_only"⟩
def tsconfig : FieldName := ⟨"tsconfig", "tsconfig"⟩
def fileExtensions : FieldName := ⟨"fileExtensions", "file_extensions"⟩
def maxCycleLength : FieldName := ⟨"maxCycleLength", "max_cycle_length"⟩

end Settings.Name

open Settings

def IgnoreRule.rule : Rule IgnoreRule :=
  record "IgnoreCycle" fun f =>
    IgnoreRule.mk <$> required Name.pattern text f
      <*> withDefault Name.package (optional text) none f
      <*> withDefault Name.reason (optional text) none f

def DpdmOptions.rule : Rule DpdmOptions :=
  let absent : DpdmOptions := {}
  record "DpdmOptions" fun f =>
    DpdmOptions.mk <$> withDefault Name.skipDynamicImports flag absent.skipDynamicImports f
      <*> withDefault Name.skipTypeOnly flag absent.skipTypeOnly f
      <*> withDefault Name.tsconfig (optional text) absent.tsconfig f

def MadgeOptions.rule : Rule MadgeOptions :=
  let absent : MadgeOptions := {}
  record "MadgeOptions" fun f =>
    MadgeOptions.mk <$> withDefault Name.tsconfig (optional text) absent.tsconfig f
      <*> withDefault Name.fileExtensions (list text) absent.fileExtensions f

def NativeOptions.lengthRule : Rule Int := fun v =>
  (int v).check (1 ≤ ·) fun _ => "Input should be greater than or equal to 1"

def NativeOptions.rule : Rule NativeOptions :=
  let absent : NativeOptions := {}
  record "NativeOptions" fun f =>
    NativeOptions.mk <$> withDefault Name.skipDynamicImports flag absent.skipDynamicImports f
      <*> withDefault Name.skipTypeOnly flag absent.skipTypeOnly f
      <*> withDefault Name.maxCycleLength NativeOptions.lengthRule absent.maxCycleLength f

namespace CircularSettings

def timeoutRule : Rule Float := fun v =>
  (number v).check (0.0 < ·) fun _ => "Input should be greater than 0"

def rule : Rule CircularSettings :=
  let absent : CircularSettings := {}
  record "CircularConfig" fun f =>
    CircularSettings.mk <$> withDefault Name.enabled flag absent.enabled f
      <*> withDefault Name.intraPackage flag absent.intraPackage f
      <*> withDefault Name.interPackage flag absent.interPackage f
      <*> withDefault Name.intraPackageSeverity Severity.rule absent.intraPackageSeverity f
      <*> withDefault Name.interPackageSeverity Severity.rule absent.interPackageSeverity f
      <*> withDefault Name.tools (list Tool.rule) absent.tools f
      <*> withDefault Name.ignoreCycles (list IgnoreRule.rule) absent.ignoreCycles f
      <*> withDefault Name.ignorePackageCycles (list (atLeast 2 (list text)))
        absent.ignorePackageCycles f
      <*> withDefault Name.includePackages (list text) absent.includePackages f
      <*> withDefault Name.excludePackages (list text) absent.excludePackages f
      <*> withDefault Name.dpdm DpdmOptions.rule absent.dpdm f
      <*> withDefault Name.madge MadgeOptions.rule absent.madge f
      <*> withDefault Name.native NativeOptions.rule absent.native f
      <*> withDefault Name.analyzerTimeout timeoutRule absent.analyzerTimeout f

end CircularSettings

def Settings.rule : Rule Settings :=
  let absent : Settings := {}
  record "MonorepoConfig" fun f =>
    Settings.mk <$> withDefault Name.version text absent.version f
      <*> withDefault Name.circular CircularSettings.rule absent.circular f

end WorkspaceCycles
