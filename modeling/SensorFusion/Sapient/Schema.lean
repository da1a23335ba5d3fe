import SensorFusion.Lib.Proto

/-!
# The SAPIENT schema

The message types of BSI Flex 335 v2.0, field by field from the `.proto` files.
A nested type goes by its own name, with its parent's in front where two parents
have one of the same name.
-/

namespace SensorFusion.Sapient

open Proto

/-- The message types. -/
inductive MessageType where
  | SapientMessage
  | Registration
  | NodeDefinition
  | Capability
  | StatusDefinition
  | Duration
  | ModeParameter
  | LocationType
  | VelocityType
  | Registration_StatusReport
  | ModeDefinition
  | DetectionDefinition
  | GeometricError
  | PerformanceValue
  | Registration_DetectionReport
  | DetectionClassDefinition
  | ClassDefinition
  | Registration_SubClass
  | BehaviourDefinition
  | TaskDefinition
  | ClassFilterDefinition
  | SubClassFilterDefinition
  | FilterParameter
  | BehaviourFilterDefinition
  | Registration_Command
  | RegionDefinition
  | TaxonomyDockDefinition
  | ExtensionSubclass
  | ConfigurationData
  | RegistrationAck
  | StatusReport
  | Power
  | Status
  | DetectionReport
  | PredictedLocation
  | TrackObjectInfo
  | DetectionReportClassification
  | DetectionReport_SubClass
  | Behaviour
  | Signal
  | DerivedDetection
  | Task
  | Task_Command
  | Region
  | ClassFilter
  | SubClassFilter
  | BehaviourFilter
  | Parameter
  | TaskAck
  | Alert
  | AlertAck
  | Error
  | LocationList
  | Location
  | RangeBearing
  | RangeBearingCone
  | LocationOrRangeBearing
  | ENUVelocity
  | ENUVelocityUnits
  | AssociatedDetection
  | AssociatedFile
  | FollowObject
  | Timestamp
deriving DecidableEq, Repr

/-- The declarations of the `.proto` files. -/
def schema : Schema MessageType
  | .SapientMessage => ⟨[
      ⟨"timestamp", .message .Timestamp, .optional, [.is_mandatory]⟩,
      ⟨"node_id", .string, .optional, [.is_mandatory, .is_uuid]⟩,
      ⟨"destination_id", .string, .optional, [.is_uuid]⟩,
      ⟨"registration", .message .Registration, .member "content", []⟩,
      ⟨"registration_ack", .message .RegistrationAck, .member "content", []⟩,
      ⟨"status_report", .message .StatusReport, .member "content", []⟩,
      ⟨"detection_report", .message .DetectionReport, .member "content", []⟩,
      ⟨"task", .message .Task, .member "content", []⟩,
      ⟨"task_ack", .message .TaskAck, .member "content", []⟩,
      ⟨"alert", .message .Alert, .member "content", []⟩,
      ⟨"alert_ack", .message .AlertAck, .member "content", []⟩,
      ⟨"error", .message .Error, .member "content", []⟩,
      ⟨"additional_information", .string, .optional, []⟩],
      [⟨"content", [.is_mandatory]⟩]⟩
  | .Registration => ⟨[
      ⟨"node_definition", .message .NodeDefinition, .repeated, [.is_mandatory]⟩,
      ⟨"icd_version", .string, .optional, [.is_mandatory]⟩,
      ⟨"name", .string, .optional, []⟩,
      ⟨"short_name", .string, .optional, []⟩,
      ⟨"capabilities", .message .Capability, .repeated, [.is_mandatory]⟩,
      ⟨"status_definition", .message .StatusDefinition, .optional, [.is_mandatory]⟩,
      ⟨"mode_definition", .message .ModeDefinition, .repeated, [.is_mandatory]⟩,
      ⟨"dependent_nodes", .string, .repeated, []⟩,
      ⟨"reporting_region", .message .LocationOrRangeBearing, .repeated, []⟩,
      ⟨"config_data", .message .ConfigurationData, .repeated, [.is_mandatory]⟩],
      []⟩
  | .NodeDefinition => ⟨[
      ⟨"node_type", .enum, .optional, [.is_mandatory]⟩,
      ⟨"node_sub_type", .string, .repeated, []⟩],
      []⟩
  | .Capability => ⟨[
      ⟨"category", .string, .optional, [.is_mandatory]⟩,
      ⟨"type", .string, .optional, [.is_mandatory]⟩,
      ⟨"value", .string, .optional, []⟩,
      ⟨"units", .string, .optional, []⟩],
      []⟩
  | .StatusDefinition => ⟨[
      ⟨"status_interval", .message .Duration, .optional, [.is_mandatory]⟩,
      ⟨"location_definition", .message .LocationType, .optional, []⟩,
      ⟨"coverage_definition", .message .LocationType, .optional, []⟩,
      ⟨"obscuration_definition", .message .LocationType, .optional, []⟩,
      ⟨"status_report", .message .Registration_StatusReport, .repeated, []⟩,
      ⟨"field_of_view_definition", .message .LocationType, .optional, []⟩],
      []⟩
  | .Duration => ⟨[
      ⟨"units", .enum, .optional, [.is_mandatory]⟩,
      ⟨"value", .float, .optional, [.is_mandatory]⟩],
      []⟩
  | .ModeParameter => ⟨[
      ⟨"type", .string, .optional, [.is_mandatory]⟩,
      ⟨"value", .string, .optional, [.is_mandatory]⟩],
      []⟩
  | .LocationType => ⟨[
      ⟨"location_units", .enum, .member "coordinates_oneof", []⟩,
      ⟨"range_bearing_units", .enum, .member "coordinates_oneof", []⟩,
      ⟨"location_datum", .enum, .member "datum_oneof", []⟩,
      ⟨"range_bearing_datum", .enum, .member "datum_oneof", []⟩,
      ⟨"zone", .string, .optional, []⟩],
      [⟨"coordinates_oneof", [.is_mandatory]⟩, ⟨"datum_oneof", [.is_mandatory]⟩]⟩
  | .VelocityType => ⟨[
      ⟨"enu_velocity_units", .message .ENUVelocityUnits, .member "velocity_units_oneof", []⟩,
      ⟨"location_datum", .enum, .member "datum_oneof", []⟩,
      ⟨"range_bearing_datum", .enum, .member "datum_oneof", []⟩,
      ⟨"zone", .string, .optional, []⟩],
      [⟨"velocity_units_oneof", [.is_mandatory]⟩, ⟨"datum_oneof", [.is_mandatory]⟩]⟩
  | .Registration_StatusReport => ⟨[
      ⟨"category", .enum, .optional, [.is_mandatory]⟩,
      ⟨"type", .string, .optional, [.is_mandatory]⟩,
      ⟨"units", .string, .optional, []⟩,
      ⟨"on_change", .bool, .optional, []⟩],
      []⟩
  | .ModeDefinition => ⟨[
      ⟨"mode_name", .string, .optional, [.is_mandatory]⟩,
      ⟨"mode_type", .enum, .optional, [.is_mandatory]⟩,
      ⟨"mode_description", .string, .optional, []⟩,
      ⟨"settle_time", .message .Duration, .optional, [.is_mandatory]⟩,
      ⟨"maximum_latency", .message .Duration, .optional, []⟩,
      ⟨"scan_type", .enum, .optional, []⟩,
      ⟨"tracking_type", .enum, .optional, []⟩,
      ⟨"duration", .message .Duration, .optional, []⟩,
      ⟨"mode_parameter", .message .ModeParameter, .repeated, []⟩,
      ⟨"detection_definition", .message .DetectionDefinition, .repeated, []⟩,
      ⟨"task", .message .TaskDefinition, .optional, [.is_mandatory]⟩],
      []⟩
  | .DetectionDefinition => ⟨[
      ⟨"location_type", .message .LocationType, .optional, [.is_mandatory]⟩,
      ⟨"detection_performance", .message .PerformanceValue, .repeated, []⟩,
      ⟨"detection_report", .message .Registration_DetectionReport, .repeated, []⟩,
      ⟨"detection_class_definition", .message .DetectionClassDefinition, .repeated, []⟩,
      ⟨"behaviour_definition", .message .BehaviourDefinition, .repeated, []⟩,
      ⟨"velocity_type", .message .VelocityType, .optional, []⟩,
      ⟨"geometric_error", .message .GeometricError, .optional, []⟩],
      []⟩
  | .GeometricError => ⟨[
      ⟨"type", .string, .optional, [.is_mandatory]⟩,
      ⟨"units", .string, .optional, [.is_mandatory]⟩,
      ⟨"variation_type", .string, .optional, [.is_mandatory]⟩,
      ⟨"performance_value", .message .PerformanceValue, .repeated, []⟩],
      []⟩
  | .PerformanceValue => ⟨[
      ⟨"type", .string, .optional, [.is_mandatory]⟩,
      ⟨"units", .string, .optional, [.is_mandatory]⟩,
      ⟨"unit_value", .string, .optional, [.is_mandatory]⟩,
      ⟨"variation_type", .string, .optional, []⟩],
      []⟩
  | .Registration_DetectionReport => ⟨[
      ⟨"category", .enum, .optional, [.is_mandatory]⟩,
      ⟨"type", .string, .optional, [.is_mandatory]⟩,
      ⟨"units", .string, .optional, [.is_mandatory]⟩,
      ⟨"on_change", .bool, .optional, []⟩],
      []⟩
  | .DetectionClassDefinition => ⟨[
      ⟨"confidence_definition", .enum, .optional, []⟩,
      ⟨"class_performance", .message .PerformanceValue, .repeated, []⟩,
      ⟨"class_definition", .message .ClassDefinition, .repeated, []⟩,
      ⟨"taxonomy_dock_definition", .message .TaxonomyDockDefinition, .repeated, []⟩],
      []⟩
  | .ClassDefinition => ⟨[
      ⟨"type", .string, .optional, [.is_mandatory]⟩,
      ⟨"units", .string, .optional, []⟩,
      ⟨"sub_class", .message .Registration_SubClass, .repeated, []⟩],
      []⟩
  | .Registration_SubClass => ⟨[
      ⟨"type", .string, .optional, [.is_mandatory]⟩,
      ⟨"units", .string, .optional, []⟩,
      ⟨"level", .int32, .optional, [.is_mandatory]⟩,
      ⟨"sub_class", .message .Registration_SubClass, .repeated, []⟩],
      []⟩
  | .BehaviourDefinition => ⟨[
      ⟨"type", .string, .optional, [.is_mandatory]⟩,
      ⟨"units", .string, .optional, []⟩],
      []⟩
  | .TaskDefinition => ⟨[
      ⟨"concurrent_tasks", .int32, .optional, []⟩,
      ⟨"region_definition", .message .RegionDefinition, .optional, [.is_mandatory]⟩,
      ⟨"command", .message .Registration_Command, .repeated, []⟩],
      []⟩
  | .ClassFilterDefinition => ⟨[
      ⟨"filter_parameter", .message .FilterParameter, .repeated, []⟩,
      ⟨"sub_class_definition", .message .SubClassFilterDefinition, .repeated, []⟩,
      ⟨"type", .string, .optional, [.is_mandatory]⟩],
      []⟩
  | .SubClassFilterDefinition => ⟨[
      ⟨"filter_parameter", .message .FilterParameter, .repeated, []⟩,
      ⟨"level", .int32, .optional, [.is_mandatory]⟩,
      ⟨"type", .string, .optional, [.is_mandatory]⟩,
      ⟨"sub_class_definition", .message .SubClassFilterDefinition, .repeated, []⟩],
      []⟩
  | .FilterParameter => ⟨[
      ⟨"parameter", .string, .optional, [.is_mandatory]⟩,
      ⟨"operators", .enum, .repeated, [.is_mandatory]⟩],
      []⟩
  | .BehaviourFilterDefinition => ⟨[
      ⟨"filter_parameter", .message .FilterParameter, .repeated, []⟩,
      ⟨"type", .string, .optional, [.is_mandatory]⟩],
      []⟩
  | .Registration_Command => ⟨[
      ⟨"units", .string, .optional, [.is_mandatory]⟩,
      ⟨"completion_time", .message .Duration, .optional, [.is_mandatory]⟩,
      ⟨"type", .enum, .optional, [.is_mandatory]⟩],
      []⟩
  | .RegionDefinition => ⟨[
      ⟨"region_type", .enum, .repeated, [.is_mandatory]⟩,
      ⟨"settle_time", .message .Duration, .optional, []⟩,
      ⟨"region_area", .message .LocationType, .repeated, [.is_mandatory]⟩,
      ⟨"class_filter_definition", .message .ClassFilterDefinition, .repeated, []⟩,
      ⟨"behaviour_filter_definition", .message .BehaviourFilterDefinition, .repeated, []⟩],
      []⟩
  | .TaxonomyDockDefinition => ⟨[
      ⟨"Dock_class_namespace", .string, .optional, [.is_mandatory]⟩,
      ⟨"Dock_class", .string, .optional, [.is_mandatory]⟩,
      ⟨"Extension_subclass", .message .ExtensionSubclass, .repeated, []⟩],
      []⟩
  | .ExtensionSubclass => ⟨[
      ⟨"Subclass_namespace", .string, .optional, [.is_mandatory]⟩,
      ⟨"Subclass_name", .string, .optional, [.is_mandatory]⟩,
      ⟨"units", .string, .optional, []⟩],
      []⟩
  | .ConfigurationData => ⟨[
      ⟨"manufacturer", .string, .implicit, [.is_mandatory]⟩,
      ⟨"model", .string, .implicit, [.is_mandatory]⟩,
      ⟨"serial_number", .string, .optional, []⟩,
      ⟨"hardware_version", .string, .optional, []⟩,
      ⟨"software_version", .string, .optional, []⟩,
      ⟨"sub_components", .message .ConfigurationData, .repeated, []⟩],
      []⟩
  | .RegistrationAck => ⟨[
      ⟨"acceptance", .bool, .optional, [.is_mandatory]⟩,
      ⟨"ack_response_reason", .string, .repeated, []⟩],
      []⟩
  | .StatusReport => ⟨[
      ⟨"report_id", .string, .optional, [.is_mandatory, .is_ulid]⟩,
      ⟨"system", .enum, .optional, [.is_mandatory]⟩,
      ⟨"info", .enum, .optional, [.is_mandatory]⟩,
      ⟨"active_task_id", .string, .optional, [.is_ulid]⟩,
      ⟨"mode", .string, .optional, [.is_mandatory]⟩,
      ⟨"power", .message .Power, .optional, []⟩,
      ⟨"node_location", .message .Location, .optional, []⟩,
      ⟨"field_of_view", .message .LocationOrRangeBearing, .optional, []⟩,
      ⟨"obscuration", .message .LocationOrRangeBearing, .repeated, []⟩,
      ⟨"status", .message .Status, .repeated, []⟩,
      ⟨"coverage", .message .LocationOrRangeBearing, .repeated, []⟩],
      []⟩
  | .Power => ⟨[
      ⟨"level", .int32, .optional, []⟩,
      ⟨"source", .enum, .implicit, []⟩,
      ⟨"status", .enum, .implicit, []⟩],
      []⟩
  | .Status => ⟨[
      ⟨"status_level", .enum, .optional, []⟩,
      ⟨"status_value", .string, .optional, []⟩,
      ⟨"status_type", .enum, .optional, [.is_mandatory]⟩],
      []⟩
  | .DetectionReport => ⟨[
      ⟨"report_id", .string, .optional, [.is_mandatory, .is_ulid]⟩,
      ⟨"object_id", .string, .optional, [.is_mandatory, .is_ulid]⟩,
      ⟨"task_id", .string, .optional, [.is_ulid]⟩,
      ⟨"state", .string, .optional, []⟩,
      ⟨"range_bearing", .message .RangeBearing, .member "location_oneof", []⟩,
      ⟨"location", .message .Location, .member "location_oneof", []⟩,
      ⟨"detection_confidence", .float, .optional, []⟩,
      ⟨"track_info", .message .TrackObjectInfo, .repeated, []⟩,
      ⟨"prediction_location", .message .PredictedLocation, .optional, []⟩,
      ⟨"object_info", .message .TrackObjectInfo, .repeated, []⟩,
      ⟨"classification", .message .DetectionReportClassification, .repeated, []⟩,
      ⟨"behaviour", .message .Behaviour, .repeated, []⟩,
      ⟨"associated_file", .message .AssociatedFile, .repeated, []⟩,
      ⟨"signal", .message .Signal, .repeated, []⟩,
      ⟨"associated_detection", .message .AssociatedDetection, .repeated, []⟩,
      ⟨"derived_detection", .message .DerivedDetection, .repeated, []⟩,
      ⟨"enu_velocity", .message .ENUVelocity, .member "velocity_oneof", []⟩,
      ⟨"colour", .string, .optional, []⟩,
      ⟨"id", .string, .optional, []⟩],
      [⟨"location_oneof", [.is_mandatory]⟩, ⟨"velocity_oneof", []⟩]⟩
  | .PredictedLocation => ⟨[
      ⟨"range_bearing", .message .RangeBearing, .member "predicted_location_oneof", []⟩,
      ⟨"location", .message .Location, .member "predicted_location_oneof", []⟩,
      ⟨"predicted_timestamp", .message .Timestamp, .optional, []⟩],
      [⟨"predicted_location_oneof", []⟩]⟩
  | .TrackObjectInfo => ⟨[
      ⟨"type", .string, .optional, [.is_mandatory]⟩,
      ⟨"value", .string, .optional, [.is_mandatory]⟩,
      ⟨"error", .float, .optional, []⟩],
      []⟩
  | .DetectionReportClassification => ⟨[
      ⟨"type", .string, .optional, [.is_mandatory]⟩,
      ⟨"confidence", .float, .optional, []⟩,
      ⟨"sub_class", .message .DetectionReport_SubClass, .repeated, []⟩],
      []⟩
  | .DetectionReport_SubClass => ⟨[
      ⟨"type", .string, .optional, [.is_mandatory]⟩,
      ⟨"confidence", .float, .optional, []⟩,
      ⟨"level", .int32, .optional, [.is_mandatory]⟩,
      ⟨"sub_class", .message .DetectionReport_SubClass, .repeated, []⟩],
      []⟩
  | .Behaviour => ⟨[
      ⟨"type", .string, .optional, [.is_mandatory]⟩,
      ⟨"confidence", .float, .optional, []⟩],
      []⟩
  | .Signal => ⟨[
      ⟨"amplitude", .float, .optional, [.is_mandatory]⟩,
      ⟨"start_frequency", .float, .optional, []⟩,
      ⟨"centre_frequency", .float, .optional, [.is_mandatory]⟩,
      ⟨"stop_frequency", .float, .optional, []⟩,
      ⟨"pulse_duration", .float, .optional, []⟩],
      []⟩
  | .DerivedDetection => ⟨[
      ⟨"timestamp", .message .Timestamp, .optional, []⟩,
      ⟨"node_id", .string, .optional, [.is_mandatory, .is_uuid]⟩,
      ⟨"object_id", .string, .optional, [.is_mandatory, .is_ulid]⟩],
      []⟩
  | .Task => ⟨[
      ⟨"task_id", .string, .optional, [.is_mandatory, .is_ulid]⟩,
      ⟨"task_name", .string, .optional, []⟩,
      ⟨"task_description", .string, .optional, []⟩,
      ⟨"task_start_time", .message .Timestamp, .optional, []⟩,
      ⟨"task_end_time", .message .Timestamp, .optional, []⟩,
      ⟨"control", .enum, .optional, [.is_mandatory]⟩,
      ⟨"region", .message .Region, .repeated, []⟩,
      ⟨"command", .message .Task_Command, .optional, []⟩],
      []⟩
  | .Task_Command => ⟨[
      ⟨"request", .string, .member "command", []⟩,
      ⟨"detection_threshold", .enum, .member "command", []⟩,
      ⟨"detection_report_rate", .enum, .member "command", []⟩,
      ⟨"classification_threshold", .enum, .member "command", []⟩,
      ⟨"mode_change", .string, .member "command", []⟩,
      ⟨"look_at", .message .LocationOrRangeBearing, .member "command", []⟩,
      ⟨"move_to", .message .LocationList, .member "command", []⟩,
      ⟨"patrol", .message .LocationList, .member "command", []⟩,
      ⟨"follow", .message .FollowObject, .member "command", []⟩,
      ⟨"command_parameter", .string, .optional, []⟩],
      [⟨"command", [.is_mandatory]⟩]⟩
  | .Region => ⟨[
      ⟨"type", .enum, .optional, [.is_mandatory]⟩,
      ⟨"region_id", .string, .optional, [.is_mandatory, .is_ulid]⟩,
      ⟨"region_name", .string, .optional, [.is_mandatory]⟩,
      ⟨"region_area", .message .LocationOrRangeBearing, .optional, [.is_mandatory]⟩,
      ⟨"class_filter", .message .ClassFilter, .repeated, []⟩,
      ⟨"behaviour_filter", .message .BehaviourFilter, .repeated, []⟩],
      []⟩
  | .ClassFilter => ⟨[
      ⟨"parameter", .message .Parameter, .optional, [.is_mandatory]⟩,
      ⟨"type", .string, .optional, [.is_mandatory]⟩,
      ⟨"sub_class_filter", .message .SubClassFilter, .repeated, []⟩,
      ⟨"priority", .enum, .optional, []⟩],
      []⟩
  | .SubClassFilter => ⟨[
      ⟨"parameter", .message .Parameter, .optional, [.is_mandatory]⟩,
      ⟨"type", .string, .optional, [.is_mandatory]⟩,
      ⟨"sub_class_filter", .message .SubClassFilter, .repeated, []⟩,
      ⟨"priority", .enum, .optional, []⟩],
      []⟩
  | .BehaviourFilter => ⟨[
      ⟨"parameter", .message .Parameter, .optional, [.is_mandatory]⟩,
      ⟨"type", .string, .optional, []⟩,
      ⟨"priority", .enum, .optional, []⟩],
      []⟩
  | .Parameter => ⟨[
      ⟨"name", .string, .optional, [.is_mandatory]⟩,
      ⟨"operator", .enum, .optional, [.is_mandatory]⟩,
      ⟨"value", .float, .optional, [.is_mandatory]⟩],
      []⟩
  | .TaskAck => ⟨[
      ⟨"task_id", .string, .optional, [.is_mandatory, .is_ulid]⟩,
      ⟨"task_status", .enum, .optional, [.is_mandatory]⟩,
      ⟨"associated_file", .message .AssociatedFile, .optional, []⟩,
      ⟨"reason", .string, .repeated, []⟩],
      []⟩
  | .Alert => ⟨[
      ⟨"alert_id", .string, .optional, [.is_mandatory, .is_ulid]⟩,
      ⟨"alert_type", .enum, .optional, []⟩,
      ⟨"status", .enum, .optional, []⟩,
      ⟨"description", .string, .optional, []⟩,
      ⟨"range_bearing", .message .RangeBearing, .member "location_oneof", []⟩,
      ⟨"location", .message .Location, .member "location_oneof", []⟩,
      ⟨"region_id", .string, .optional, [.is_ulid]⟩,
      ⟨"priority", .enum, .optional, []⟩,
      ⟨"ranking", .float, .optional, []⟩,
      ⟨"confidence", .float, .optional, []⟩,
      ⟨"associated_file", .message .AssociatedFile, .repeated, []⟩,
      ⟨"associated_detection", .message .AssociatedDetection, .repeated, []⟩,
      ⟨"additional_information", .string, .optional, []⟩],
      [⟨"location_oneof", []⟩]⟩
  | .AlertAck => ⟨[
      ⟨"alert_id", .string, .optional, [.is_mandatory, .is_ulid]⟩,
      ⟨"reason", .string, .repeated, []⟩,
      ⟨"alert_ack_status", .enum, .optional, [.is_mandatory]⟩],
      []⟩
  | .Error => ⟨[
      ⟨"packet", .bytes, .optional, [.is_mandatory]⟩,
      ⟨"error_message", .string, .repeated, [.is_mandatory]⟩],
      []⟩
  | .LocationList => ⟨[
      ⟨"locations", .message .Location, .repeated, [.is_mandatory]⟩],
      []⟩
  | .Location => ⟨[
      ⟨"x", .double, .optional, [.is_mandatory]⟩,
      ⟨"y", .double, .optional, [.is_mandatory]⟩,
      ⟨"z", .double, .optional, []⟩,
      ⟨"x_error", .double, .optional, []⟩,
      ⟨"y_error", .double, .optional, []⟩,
      ⟨"z_error", .double, .optional, []⟩,
      ⟨"coordinate_system", .enum, .optional, [.is_mandatory]⟩,
      ⟨"datum", .enum, .optional, [.is_mandatory]⟩,
      ⟨"utm_zone", .string, .optional, []⟩],
      []⟩
  | .RangeBearing => ⟨[
      ⟨"elevation", .double, .optional, []⟩,
      ⟨"azimuth", .double, .optional, []⟩,
      ⟨"range", .double, .optional, []⟩,
      ⟨"elevation_error", .double, .optional, []⟩,
      ⟨"azimuth_error", .double, .optional, []⟩,
      ⟨"range_error", .double, .optional, []⟩,
      ⟨"coordinate_system", .enum, .optional, [.is_mandatory]⟩,
      ⟨"datum", .enum, .optional, [.is_mandatory]⟩],
      []⟩
  | .RangeBearingCone => ⟨[
      ⟨"elevation", .double, .optional, []⟩,
      ⟨"azimuth", .double, .optional, []⟩,
      ⟨"range", .double, .optional, []⟩,
      ⟨"horizontal_extent", .double, .optional, []⟩,
      ⟨"vertical_extent", .double, .optional, []⟩,
      ⟨"horizontal_extent_error", .double, .optional, []⟩,
      ⟨"vertical_extent_error", .double, .optional, []⟩,
      ⟨"elevation_error", .double, .optional, []⟩,
      ⟨"azimuth_error", .double, .optional, []⟩,
      ⟨"range_error", .double, .optional, []⟩,
      ⟨"coordinate_system", .enum, .optional, [.is_mandatory]⟩,
      ⟨"datum", .enum, .optional, [.is_mandatory]⟩],
      []⟩
  | .LocationOrRangeBearing => ⟨[
      ⟨"range_bearing", .message .RangeBearingCone, .member "fov_oneof", []⟩,
      ⟨"location_list", .message .LocationList, .member "fov_oneof", []⟩],
      [⟨"fov_oneof", [.is_mandatory]⟩]⟩
  | .ENUVelocity => ⟨[
      ⟨"east_rate", .double, .optional, [.is_mandatory]⟩,
      ⟨"north_rate", .double, .optional, [.is_mandatory]⟩,
      ⟨"up_rate", .double, .optional, []⟩,
      ⟨"east_rate_error", .double, .optional, []⟩,
      ⟨"north_rate_error", .double, .optional, []⟩,
      ⟨"up_rate_error", .double, .optional, []⟩],
      []⟩
  | .ENUVelocityUnits => ⟨[
      ⟨"east_north_rate_units", .enum, .optional, [.is_mandatory]⟩,
      ⟨"up_rate_units", .enum, .optional, []⟩],
      []⟩
  | .AssociatedDetection => ⟨[
      ⟨"timestamp", .message .Timestamp, .optional, []⟩,
      ⟨"node_id", .string, .optional, [.is_mandatory, .is_uuid]⟩,
      ⟨"object_id", .string, .optional, [.is_mandatory, .is_ulid]⟩,
      ⟨"association_type", .enum, .optional, []⟩],
      []⟩
  | .AssociatedFile => ⟨[
      ⟨"type", .string, .optional, [.is_mandatory]⟩,
      ⟨"url", .string, .optional, [.is_mandatory]⟩],
      []⟩
  | .FollowObject => ⟨[
      ⟨"follow_object_id", .string, .implicit, [.is_mandatory]⟩],
      []⟩
  | .Timestamp => ⟨[
      ⟨"seconds", .int64, .implicit, []⟩,
      ⟨"nanos", .int32, .implicit, []⟩],
      []⟩

/-- A SAPIENT message, as parsing gives it. -/
structure SapientMessage where
  fields : Message
  conforms : Conforms schema .SapientMessage fields

/-- The content of a message: `message.WhichOneof("content")`. -/
def content (m : Message) : Option String := (schema .SapientMessage).whichOneof "content" m

end SensorFusion.Sapient
